import ElCarro.Database.PasswordLog

/-! # What requests do to PDBs

A request has the effects of the statements that were executed. All statements but the
one that creates a PDB only add to what there is.
-/

namespace ElCarro.Databases

open K8s Api Flow Users

section Outcomes

/-- The statements of a request are all executed. -/
structure Execution.Runs (o : Execution) (n : Nat) : Prop where
  opened : o.opened = none
  enabled : o.enabled = none
  executed : ∀ i < n, o.executed i = none
  output : ∀ i, i + 1 < n → (o.output i).isOk = true

/-- And the answer gets to the controller. -/
structure Execution.Answers (o : Execution) (n : Nat) : Prop extends o.Runs n where
  last : ∀ i, i + 1 = n → (o.output i).isOk = true
  lost : o.lost = none

/-- A request of one statement takes effect, whatever the answer is. -/
def Execution.TakesEffect (o : Execution) : Prop :=
  o.opened = none ∧ o.enabled = none ∧ (o.executed 0 = none ∨ o.tookEffect = true)

end Outcomes

section Effects

variable {casing : Casing} {sid : String} {req : Request} {o : Execution} {e t : Engine}

/-- The effects of statements, one after the other. -/
def effects (casing : Casing) (container : String) (e : Engine) : List Statement → Engine
  | [] => e
  | st :: rest => effects casing (containerAfter container st) (effect casing container e st) rest

/-- The same PDBs, in the same state. -/
structure SamePdbs (e t : Engine) : Prop where
  pdbs : t.pdbs = e.pdbs
  detail : t.detail = e.detail

theorem SamePdbs.refl (e : Engine) : SamePdbs e e := ⟨rfl, rfl⟩

theorem runStatements_of_runs (sql container : String) (e : Engine) {sts : List Statement}
    {i : Nat} (hexec : ∀ k < sts.length, o.executed (i + k) = none)
    (hout : ∀ k, k + 1 < sts.length → (o.output (i + k)).isOk = true) :
    (runStatements casing sql o i container sts e).2.1 = effects casing container e sts ∧
      ((∀ k, k + 1 = sts.length → (o.output (i + k)).isOk = true) →
        (runStatements casing sql o i container sts e).2.2.isOk = true) := by
  induction sts generalizing i container e with
  | nil => exact ⟨rfl, fun _ => rfl⟩
  | cons st sts ih =>
    have hfirst : o.executed i = none := hexec 0 (by simp)
    have hexec' : ∀ k < sts.length, o.executed (i + 1 + k) = none := by
      intro k hk
      have := hexec (k + 1) (by simpa using hk)
      rwa [show i + (k + 1) = i + 1 + k by omega] at this
    have hout' : ∀ k, k + 1 < sts.length → (o.output (i + 1 + k)).isOk = true := by
      intro k hk
      have := hout (k + 1) (by simpa using hk)
      rwa [show i + (k + 1) = i + 1 + k by omega] at this
    simp only [runStatements, hfirst, effects]
    cases hi : o.output i with
    | error err =>
      -- only the last statement can fail to give its output
      cases sts with
      | nil => exact ⟨rfl, fun hlast => by simpa [hi, Except.isOk, Except.toBool] using hlast 0 rfl⟩
      | cons st' sts =>
        have := hout 0 (by simp)
        rw [Nat.add_zero, hi] at this
        cases this
    | ok out =>
      obtain ⟨heffects, hres⟩ :=
        ih (containerAfter container st) (effect casing container e st) hexec' hout'
      refine ⟨heffects, fun hlast => ?_⟩
      simp only
      cases hr : (runStatements casing sql o (i + 1) (containerAfter container st) sts
          (effect casing container e st)).2.2 with
      | error err =>
        have hok := hres fun k hk => by
          have := hlast (k + 1) (by simpa using hk)
          rwa [show i + (k + 1) = i + 1 + k by omega] at this
        rw [hr] at hok
        cases hok
      | ok out' => rfl

theorem helper_of_runs (casing : Casing) (sid : String) (e : Engine) (h : o.Runs req.commands.length) :
    (runSQLPlusHelper casing sid req o e).2.1 = effects casing "CDB$ROOT" e req.commands ∧
      ((∀ k, k + 1 = req.commands.length → (o.output k).isOk = true) →
        (runSQLPlusHelper casing sid req o e).2.2.isOk = true) := by
  have hexec : ∀ k < req.commands.length, o.executed (0 + k) = none := by simpa using h.executed
  have hout : ∀ k, k + 1 < req.commands.length → (o.output (0 + k)).isOk = true := by
    simpa using h.output
  obtain ⟨heffects, hres⟩ :=
    runStatements_of_runs (sqlForLogging casing req) "CDB$ROOT" e hexec hout
  unfold runSQLPlusHelper
  simp only [h.opened, runSQL, h.enabled]
  exact ⟨heffects, fun hlast => hres (by simpa using hlast)⟩

/-- A request whose statements are all executed has their effects. -/
theorem sendSQL_of_runs (hv : req.valid casing = true) (h : o.Runs req.commands.length)
    (sid : String) (e : Engine) : ∃ err t, sendSQL casing sid req o e = .next err t ∧
      SamePdbs (effects casing "CDB$ROOT" e req.commands) t := by
  have heffects := (helper_of_runs casing sid e h).1
  unfold sendSQL
  simp only [hv, not_true_eq_false, if_false]
  refine ⟨_, _, rfl, ?_⟩
  rw [← heffects]
  exact ⟨rfl, rfl⟩

theorem sendSQL_of_answers (hv : req.valid casing = true) (h : o.Answers req.commands.length)
    (sid : String) (e : Engine) : ∃ t, sendSQL casing sid req o e = .next none t ∧
      SamePdbs (effects casing "CDB$ROOT" e req.commands) t := by
  obtain ⟨heffects, hres⟩ := helper_of_runs casing sid e h.toRuns
  have hok := hres h.last
  unfold sendSQL
  simp only [hv, not_true_eq_false, if_false, h.lost, runSQLPlus]
  cases hr : (runSQLPlusHelper casing sid req o e).2.2 with
  | error err =>
    rw [hr] at hok
    cases hok
  | ok out =>
    refine ⟨_, rfl, ?_⟩
    rw [← heffects]
    exact ⟨rfl, rfl⟩

theorem samePdbs_runSQLPlus :
    SamePdbs (runSQLPlusHelper casing sid req o e).2.1 (runSQLPlus casing sid req o e).1 := ⟨rfl, rfl⟩

theorem wp_sendSQL {Q : Option String → Engine → Prop} {R : Failure → Engine → Prop}
    (hpanic : req.valid casing = false → R .panic e)
    (hsent : req.valid casing = true → ∀ err, Q err (runSQLPlus casing sid req o e).1) :
    wp (sendSQL casing sid req o) Q R e := by
  unfold wp sendSQL
  cases hv : req.valid casing with
  | false => exact hpanic hv
  | true => exact hsent hv _

/-- A single statement that does not take effect is reported as an error. -/
theorem sendSQL_of_not_takesEffect {st : Statement} (sid : String) (e : Engine)
    (hreq : req.commands = [st]) (h : ¬ o.TakesEffect) (hv : req.valid casing = true) :
    ∃ err t, sendSQL casing sid req o e = .next (some err) t ∧ SamePdbs e t := by
  have hhelper : (runSQLPlusHelper casing sid req o e).2.1 = e ∧
      ∃ err, (runSQLPlusHelper casing sid req o e).2.2 = .error err := by
    unfold Execution.TakesEffect at h
    unfold runSQLPlusHelper
    cases hopened : o.opened with
    | some err => exact ⟨rfl, _, rfl⟩
    | none =>
      simp only [runSQL]
      cases henabled : o.enabled with
      | some err => exact ⟨rfl, _, rfl⟩
      | none =>
        simp only [hopened, henabled, true_and, not_or] at h
        obtain ⟨err, herr⟩ := Option.ne_none_iff_exists'.mp h.1
        simp only [hreq, runStatements, herr, Bool.not_eq_true] at h ⊢
        simp [h.2]
  obtain ⟨hsame, err, herr⟩ := hhelper
  have hpdbs : SamePdbs e (runSQLPlus casing sid req o e).1 := by
    have hpdbs : SamePdbs (runSQLPlusHelper casing sid req o e).2.1 _ := samePdbs_runSQLPlus
    rwa [hsame] at hpdbs
  have hreply : (runSQLPlus casing sid req o e).2 = .error err := herr
  unfold sendSQL
  simp only [hv, not_true_eq_false, if_false, hreply]
  cases o.lost with
  | some lost => exact ⟨lost, _, rfl, hpdbs⟩
  | none => exact ⟨err, _, rfl, hpdbs⟩

end Effects

section Improvement

variable {casing : Casing} {sid : String} {req : Request} {o : Execution} {e t : Engine}

/-- Whatever was done about a PDB is still done. -/
structure Better (d d' : PdbState) : Prop where
  opened : d.opened = true → d'.opened = true
  saved : d.saved = true → d'.saved = true
  grants : ∀ g ∈ d.grants, g ∈ d'.grants
  directories : ∀ dir ∈ d.directories, dir ∈ d'.directories
  accounts : ∀ name, (d.accounts.account name).isSome = true → (d'.accounts.account name).isSome = true

theorem Better.refl (d : PdbState) : Better d d := ⟨id, id, fun _ => id, fun _ => id, fun _ => id⟩

theorem Better.trans {d d' d'' : PdbState} (h : Better d d') (h' : Better d' d'') : Better d d'' where
  opened := h'.opened ∘ h.opened
  saved := h'.saved ∘ h.saved
  grants g hg := h'.grants g (h.grants g hg)
  directories dir hdir := h'.directories dir (h.directories dir hdir)
  accounts name hname := h'.accounts name (h.accounts name hname)

structure Improves (e t : Engine) : Prop where
  pdbs : t.pdbs = e.pdbs
  detail : ∀ pdb, Better (e.detail pdb) (t.detail pdb)

instance : Std.Refl Improves := ⟨fun _ => ⟨rfl, fun _ => .refl _⟩⟩

instance : IsTrans Engine Improves :=
  ⟨fun _ _ _ h h' => ⟨h'.pdbs.trans h.pdbs, fun pdb => (h.detail pdb).trans (h'.detail pdb)⟩⟩

theorem SamePdbs.improves (h : SamePdbs e t) : Improves e t :=
  ⟨h.pdbs, fun _ => h.detail.symm ▸ .refl _⟩

theorem isSome_set {a : Accounts} {name n : String} {acc : Account}
    (h : (a.account n).isSome = true) : ((a.set name acc).account n).isSome = true := by
  by_cases hn : n = name
  · subst hn
    rw [set_account]
    rfl
  · rwa [touches_set n hn]

theorem isSome_changeAccount {a : Accounts} {name n : String} {f : Account → Account}
    (h : (a.account n).isSome = true) : ((changeAccount name f a).account n).isSome = true := by
  unfold changeAccount
  split
  · exact h
  · exact isSome_set h

@[simp] theorem changePDB_detail {pdb : String} {f : PdbState → PdbState} :
    (changePDB pdb f e).detail pdb = f (e.detail pdb) := Function.update_self _ _ _

theorem improves_changePDB {pdb : String} {f : PdbState → PdbState} (h : ∀ d, Better d (f d)) :
    Improves e (changePDB pdb f e) := by
  constructor
  · rfl
  · intro p
    unfold changePDB
    by_cases hp : p = pdb
    · subst hp
      simpa using h (e.detail p)
    · simpa [hp] using Better.refl (e.detail p)

theorem improves_effect {c : String} {st : Statement} (h : ∀ p, st ≠ .createPDB p) :
    Improves e (effect casing c e st) := by
  cases st with
  | setSessionContainer pdb => exact Std.Refl.refl e
  | createPDB p => exact absurd rfl (h p)
  | openPDB pdb =>
    rw [effect]
    apply improves_changePDB
    intro d
    exact ⟨fun _ => rfl, id, fun _ => id, fun _ => id, fun _ => id⟩
  | saveState pdb =>
    rw [effect]
    apply improves_changePDB
    intro d
    exact ⟨id, fun _ => rfl, fun _ => id, fun _ => id, fun _ => id⟩
  | createDir dir path =>
    rw [effect]
    apply improves_changePDB
    intro d
    exact ⟨id, id, fun _ => id, fun _ => List.mem_cons_of_mem _, fun _ => id⟩
  | createUser name pass =>
    rw [effect]
    apply improves_changePDB
    intro d
    exact ⟨id, id, fun _ => id, fun _ => id, fun _ => isSome_set⟩
  | alterUser name pass =>
    rw [effect]
    apply improves_changePDB
    intro d
    exact ⟨id, id, fun _ => id, fun _ => id, fun _ => isSome_changeAccount⟩
  | grantPrivileges privileges grantee =>
    rw [effect]
    apply improves_changePDB
    intro d
    exact ⟨id, id, fun _ => List.mem_cons_of_mem _, fun _ => id, fun _ => isSome_changeAccount⟩
  | revokePrivileges privileges grantee =>
    rw [effect]
    apply improves_changePDB
    intro d
    exact ⟨id, id, fun _ => id, fun _ => id, fun _ => isSome_changeAccount⟩

theorem improves_effects {sts : List Statement} (h : ∀ st ∈ sts, ∀ p, st ≠ .createPDB p)
    (container : String) (e : Engine) : Improves e (effects casing container e sts) := by
  induction sts generalizing container e with
  | nil => exact Std.Refl.refl e
  | cons st sts ih =>
    have hst : Improves e (effect casing container e st) := improves_effect (h st List.mem_cons_self)
    have hrest := ih (fun st' hst' => h st' (List.mem_cons_of_mem _ hst'))
      (containerAfter container st) (effect casing container e st)
    exact IsTrans.trans _ _ _ hst hrest

theorem improves_runStatements {sql : String} {sts : List Statement}
    (h : ∀ st ∈ sts, ∀ p, st ≠ .createPDB p) (container : String) (i : Nat) (e : Engine) :
    Improves e (runStatements casing sql o i container sts e).2.1 := by
  induction sts generalizing i container e with
  | nil => exact Std.Refl.refl e
  | cons st sts ih =>
    have hst : Improves e (effect casing container e st) := improves_effect (h st List.mem_cons_self)
    simp only [runStatements]
    cases o.executed i with
    | some err =>
      simp only
      split
      · exact hst
      · exact Std.Refl.refl e
    | none =>
      cases o.output i with
      | error err => exact hst
      | ok out =>
        have hrest := ih (fun st' hst' => h st' (List.mem_cons_of_mem _ hst'))
          (containerAfter container st) (i + 1) (effect casing container e st)
        exact IsTrans.trans _ _ _ hst hrest

/-- A request without a new PDB only adds to what there is. -/
theorem improves_sendSQL (h : ∀ st ∈ req.commands, ∀ p, st ≠ .createPDB p) :
    Within Improves (sendSQL casing sid req o) := by
  intro e
  apply wp_sendSQL
  · exact fun _ => Std.Refl.refl e
  · intro _ err
    have hhelper : Improves e (runSQLPlusHelper casing sid req o e).2.1 := by
      unfold runSQLPlusHelper
      cases o.opened with
      | some err => exact Std.Refl.refl e
      | none =>
        simp only [runSQL]
        cases o.enabled with
        | some err => exact Std.Refl.refl e
        | none => exact improves_runStatements h _ _ e
    exact IsTrans.trans _ _ _ hhelper samePdbs_runSQLPlus.improves

theorem improves_orFail {c : String} {err : Option String} : Within Improves (orFail c err) := by
  intro e
  exact wp_orFail.mpr ⟨fun _ => Std.Refl.refl e, fun _ _ => Std.Refl.refl e⟩

section Users

variable {env : CreateUsersEnv} {secret : String → String} {pdbName : String} {users : List UserSpec}

theorem improves_secretCmds : Within Improves (secretCmds env secret users) := by
  induction users with
  | nil => exact Within.pure _
  | cons u users ih =>
    rw [secretCmds]
    split
    · exact ih
    · apply Within.ite
      · exact fun _ => ih
      · intro _
        apply Within.bind improves_orFail
        intro _
        apply Within.bind (Within.when fun _ => Within.finish _)
        intro _
        apply Within.bind ih
        intro _
        exact Within.pure _

/-- The statements for secrets create users. -/
theorem secretCmds_createUser :
    wp (secretCmds env secret users) (fun cmds _ => ∀ st ∈ cmds, ∃ n p, st = .createUser n p)
      (fun _ _ => True) e := by
  induction users with
  | nil => simp [secretCmds]
  | cons u users ih =>
    rw [secretCmds]
    split
    · exact ih
    · split
      · exact ih
      · simp only [wp_bind, wp_orFail, wp_when, wp_finish, implies_true, and_true, true_and]
        intro _ _
        apply ih.mono
        · intro cmds t hcmds st hst
          rcases List.mem_cons.mp hst with rfl | hst
          · exact ⟨_, _, rfl⟩
          · exact hcmds st hst
        · exact fun _ _ _ => trivial

theorem improves_runUserCmds {cmds : List Statement} (h : ∀ st ∈ cmds, ∃ n p, st = .createUser n p) :
    Within Improves (runUserCmds casing sid env pdbName users cmds) := by
  have husers : ∀ st ∈ Statement.setSessionContainer (casing.toUpper pdbName) ::
      plaintextCmds users ++ cmds, ∀ p, st ≠ .createPDB p := by
    intro st hst p
    simp only [List.cons_append, List.mem_cons, List.mem_append, plaintextCmds, List.mem_map] at hst
    rcases hst with rfl | ⟨u, -, rfl⟩ | hst
    · exact Statement.noConfusion
    · exact Statement.noConfusion
    · obtain ⟨n, q, rfl⟩ := h st hst
      exact Statement.noConfusion
  have hgrants : ∀ st ∈ Statement.setSessionContainer (casing.toUpper pdbName) :: grantCmds users,
      ∀ p, st ≠ .createPDB p := by
    intro st hst p
    simp only [grantCmds, List.mem_cons, List.mem_flatMap, List.mem_map] at hst
    rcases hst with rfl | ⟨u, -, q, -, rfl⟩
    · exact Statement.noConfusion
    · exact Statement.noConfusion
  apply Within.bind (improves_sendSQL husers)
  intro _
  apply Within.bind improves_orFail
  intro _
  apply Within.bind (improves_sendSQL hgrants)
  intro _
  exact improves_orFail

theorem improves_createUsers :
    Within Improves (createUsers casing sid env secret pdbName users) := by
  intro e
  unfold createUsers
  simp only [wp_bind, wp_when, wp_finish, wp_orFail]
  have hrefl : Improves e e := Std.Refl.refl e
  refine ⟨fun _ => hrefl, fun _ => ⟨fun _ => ⟨fun _ => ⟨fun _ => ?_, fun _ _ => hrefl⟩,
    fun _ _ => hrefl⟩, fun _ _ => hrefl⟩⟩
  apply ((improves_secretCmds e).and secretCmds_createUser).mono
  · rintro cmds t ⟨het, hcmds⟩
    apply (improves_runUserCmds hcmds t).mono
    · exact fun _ _ htu => IsTrans.trans _ _ _ het htu
    · exact fun _ _ htu => IsTrans.trans _ _ _ het htu
  · exact fun _ _ h => h.1

end Users

end Improvement

end ElCarro.Databases
