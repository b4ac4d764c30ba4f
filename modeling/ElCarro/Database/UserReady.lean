import ElCarro.Database.Completeness

/-! # Users that are reported as ready

UserReady is set after a sync in which nothing was suppressed and every change was made,
and after the users of a new PDB were created. What `CreateUsers` says in the second
case is not looked at.
-/

namespace ElCarro.Databases

open GoTime K8s Api Flow Users

open Instance.Reconciler (Result)

section Creation

variable {casing : Casing} {sid : String} {env : CreateUsersEnv} {secret : String → String}
  {users : List UserSpec} {pdbName : String} {e t : Engine}

def hasSecret (u : UserSpec) : Bool := u.gsmSecretRef.isSome && u.name ≠ ""

/-- The entry has a password, or a secret to read it from. -/
def usable (u : UserSpec) : Bool := u.password ≠ "" || hasSecret u

/-- Everything that `CreateUsers` does for these users succeeds. -/
structure CreateUsersEnv.Succeeds (env : CreateUsersEnv) (secret : String → String)
    (users : List UserSpec) : Prop where
  hostname : env.hostname = none
  newClient : env.newClient = none
  checkDatabaseState : env.checkDatabaseState = none
  secrets : ∀ u ∈ users, hasSecret u = true → ∀ ref ∈ u.gsmSecretRef,
    env.accessSecret (gsmResourceVersion ref) = none ∧
      isIdentifier (secret (gsmResourceVersion ref)) = true
  created : env.users.Answers ((plaintextCmds users).length + (users.filter hasSecret).length + 1)
  granted : env.privs.Answers ((grantCmds users).length + 1)

theorem secretCmds_of_accessible
    (h : ∀ u ∈ users, hasSecret u = true → ∀ ref ∈ u.gsmSecretRef,
      env.accessSecret (gsmResourceVersion ref) = none ∧
        isIdentifier (secret (gsmResourceVersion ref)) = true) :
    ∃ cmds, secretCmds env secret users e = .next cmds e ∧
      cmds.length = (users.filter hasSecret).length ∧
      (∀ st ∈ cmds, ∃ n p, st = .createUser n p) ∧
      ∀ u ∈ users, hasSecret u = true → ∃ p, .createUser u.name p ∈ cmds := by
  induction users with
  | nil => exact ⟨[], rfl, rfl, by simp, by simp⟩
  | cons u users ih =>
    obtain ⟨cmds, hrun, hlen, hall, hmem⟩ := ih fun v hv => h v (List.mem_cons_of_mem _ hv)
    by_cases hsecret : hasSecret u = true
    · obtain ⟨hsome, hname⟩ : u.gsmSecretRef.isSome = true ∧ u.name ≠ "" := by
        simpa [hasSecret] using hsecret
      obtain ⟨ref, href⟩ := Option.isSome_iff_exists.mp hsome
      obtain ⟨haccess, hquoted⟩ := h u List.mem_cons_self hsecret ref href
      rw [secretCmds_cons href hname haccess hquoted]
      refine ⟨_, bind_next hrun, by simp [hsecret, hlen], ?_, ?_⟩
      · intro st hst
        rcases List.mem_cons.mp hst with rfl | hst
        · exact ⟨_, _, rfl⟩
        · exact hall st hst
      · intro v hv hv'
        rcases List.mem_cons.mp hv with rfl | hv
        · exact ⟨_, List.mem_cons_self⟩
        · obtain ⟨p, hp⟩ := hmem v hv hv'
          exact ⟨p, List.mem_cons_of_mem _ hp⟩
    · rw [secretCmds_cons_skip]
      · refine ⟨cmds, hrun, by simp [hsecret, hlen], hall, ?_⟩
        intro v hv hv'
        rcases List.mem_cons.mp hv with rfl | hv
        · exact absurd hv' hsecret
        · exact hmem v hv hv'
      · simpa [hasSecret, or_iff_not_imp_left, Option.isSome_iff_ne_none] using hsecret

/-- The PDB has a user of that name. -/
def HasUser (casing : Casing) (e : Engine) (pdb name : String) : Prop :=
  ((e.detail pdb).accounts.account (casing.toUpper name)).isSome = true

theorem HasUser.improve {pdb name : String} (h : HasUser casing e pdb name) (hbetter : Improves e t) :
    HasUser casing t pdb name := (hbetter.detail pdb).accounts _ h

/-- Statements that create users in a container create them all. -/
theorem hasUser_effects {pdb name pass : String} {sts : List Statement}
    (hall : ∀ st ∈ sts, ∃ n p, st = .createUser n p) (hmem : .createUser name pass ∈ sts) :
    HasUser casing (effects casing pdb e sts) pdb name := by
  induction sts generalizing e with
  | nil => cases hmem
  | cons st sts ih =>
    obtain ⟨n, p, rfl⟩ := hall st List.mem_cons_self
    have hrest : ∀ st ∈ sts, ∃ n p, st = .createUser n p :=
      fun st hst => hall st (List.mem_cons_of_mem _ hst)
    rcases List.mem_cons.mp hmem with heq | hmem
    · obtain ⟨rfl, rfl⟩ := Statement.createUser.inj heq
      have hnow : HasUser casing (effect casing pdb e (.createUser name pass)) pdb name := by
        simp [HasUser, effect]
      apply hnow.improve
      apply improves_effects
      intro st hst q hq
      obtain ⟨n, p, rfl⟩ := hrest st hst
      cases hq
    · exact ih hrest hmem

/-- Where everything succeeds, every user with a password is created. -/
theorem createUsers_of_succeeds (h : env.Succeeds secret users) :
    wp (createUsers casing sid env secret pdbName users)
      (fun _ t => ∀ u ∈ users, usable u = true → HasUser casing t (casing.toUpper pdbName) u.name)
      (fun r _ => r = .panic) e := by
  obtain ⟨cmds, hrun, hlen, hall, hmem⟩ := secretCmds_of_accessible (e := e) h.secrets
  unfold createUsers
  simp only [wp_bind, wp_when, wp_finish, wp_orFail, h.hostname, h.newClient, h.checkDatabaseState,
    implies_true, true_and, reduceCtorEq, false_implies, and_true, forall_const]
  intro _
  rw [← wp_bind]
  apply wp_bind_next hrun
  unfold runUserCmds
  set req : Request :=
    ⟨.setSessionContainer (casing.toUpper pdbName) :: plaintextCmds users ++ cmds, true⟩ with hreq
  by_cases hv : req.valid casing = true
  · have hanswers : env.users.Answers req.commands.length := by
      have hlength : req.commands.length =
          (plaintextCmds users).length + (users.filter hasSecret).length + 1 := by
        simp [hreq, hlen]
      rw [hlength]
      exact h.created
    obtain ⟨t, hsend, hsame⟩ := sendSQL_of_answers hv hanswers sid e
    have husers : ∀ u ∈ users, usable u = true → HasUser casing t (casing.toUpper pdbName) u.name := by
      intro u hu husable
      have hstatements : ∀ st ∈ plaintextCmds users ++ cmds, ∃ n p, st = .createUser n p := by
        intro st hst
        rcases List.mem_append.mp hst with hst | hst
        · obtain ⟨v, -, rfl⟩ := List.mem_map.mp hst
          exact ⟨_, _, rfl⟩
        · exact hall st hst
      obtain ⟨p, hp⟩ : ∃ p, .createUser u.name p ∈ plaintextCmds users ++ cmds := by
        rcases (Bool.or_eq_true _ _).mp husable with hpwd | hsecret
        · exact ⟨u.password, List.mem_append_left _
            (List.mem_map.mpr ⟨u, List.mem_filter.mpr ⟨hu, hpwd⟩, rfl⟩)⟩
        · obtain ⟨p, hp⟩ := hmem u hu hsecret
          exact ⟨p, List.mem_append_right _ hp⟩
      have hnow : HasUser casing (effects casing "CDB$ROOT" e req.commands) (casing.toUpper pdbName)
          u.name := by
        have hin : HasUser casing (effects casing (casing.toUpper pdbName) e (plaintextCmds users ++ cmds))
            (casing.toUpper pdbName) u.name := hasUser_effects hstatements hp
        exact hin
      exact hnow.improve hsame.improves
    apply wp_bind_next hsend
    apply wp_bind_next (b := ()) (t := t) rfl
    by_cases hgrants : Request.valid casing
        ⟨.setSessionContainer (casing.toUpper pdbName) :: grantCmds users, false⟩ = true
    · obtain ⟨t', hsend', hsame'⟩ := sendSQL_of_answers hgrants (by simpa using h.granted) sid t
      apply wp_bind_next hsend'
      have hbetter : Improves t t' := by
        have hadds : ∀ st ∈ Statement.setSessionContainer (casing.toUpper pdbName) :: grantCmds users,
            ∀ p, st ≠ .createPDB p := by
          intro st hst p
          simp only [grantCmds, List.mem_cons, List.mem_flatMap, List.mem_map] at hst
          rcases hst with rfl | ⟨u, -, q, -, rfl⟩
          · exact Statement.noConfusion
          · exact Statement.noConfusion
        exact IsTrans.trans _ _ _ (improves_effects hadds _ t) hsame'.improves
      exact fun u hu husable => (husers u hu husable).improve hbetter
    · rw [wp_bind]
      apply wp_sendSQL
      · exact fun _ => rfl
      · exact fun hvalid => absurd hvalid hgrants
  · rw [wp_bind]
    apply wp_sendSQL
    · exact fun _ => rfl
    · exact fun hvalid => absurd hvalid hv

end Creation

section Sync

variable {cat : Catalog} {sync : SyncEnv} {spec : DatabaseSpec} {status : UserStatus} {a : Accounts}
  {u : UserSpec}

theorem exists_account_of_isListed {name : String} (h : isListed a name = true) :
    ∃ acc, a.account name = some acc := by
  simp only [isListed, Bool.and_eq_true, Option.any_eq_true] at h
  obtain ⟨⟨acc, hacc, -⟩, -⟩ := h
  exact ⟨acc, hacc⟩

/-- A sync that sets UserReady leaves no user of the spec out. -/
theorem account_of_syncSetsReady
    (h : syncSetsReady sync cat spec status.userResourceVersions a = true) (hu : u ∈ spec.users) :
    (((syncUsers cat sync plainCasing spec status a).2.1).account
      (plainCasing.toUpper u.name)).isSome = true := by
  have hmem : userRequest status.userResourceVersions u ∈
      spec.users.map (userRequest status.userResourceVersions) := List.mem_map_of_mem hu
  obtain ⟨w, hw⟩ := @nameToUser_of_mem plainCasing _ _ hmem
  have hname : w.userName = plainCasing.toUpper u.name := nameToUser_userName hw
  obtain ⟨v, hv, rfl⟩ := exists_counts hw
  have hv' : plainCasing.toUpper v.name = plainCasing.toUpper u.name := hname
  unfold syncSetsReady at h
  obtain ⟨resp, hresp, hset⟩ := (Option.any_eq_true _ _).mp h
  simp only [Bool.and_eq_true, Bool.or_eq_true, decide_eq_true_eq] at hset
  unfold syncUsers
  simp only [hresp]
  split
  · next hchanged =>
    have hlisted : isListed a (plainCasing.toUpper u.name) = true := by
      by_contra hnot
      apply hchanged
      rw [changed_iff hresp]
      exact ⟨v, hv, .inl (by rw [hv']; simpa using hnot)⟩
    obtain ⟨acc, hacc⟩ := exists_account_of_isListed hlisted
    simp [hacc]
  · next hchanged =>
    obtain ⟨hprogress, hupdate⟩ := hset.2.resolve_left hchanged
    simp only [hprogress, not_true_eq_false, if_false]
    split
    · next hfailed =>
      rw [hfailed] at hupdate
      cases hupdate
    · next b hok =>
      obtain ⟨hcreated, hupdated⟩ := updateUsers_true hok hv.nameToUser
      cases hlisted : isListed a (entryUser plainCasing status.userResourceVersions v).userName with
      | false =>
        obtain ⟨privs, hacc, -⟩ := (hcreated hlisted).account
        rw [hname] at hacc
        simp [hacc]
      | true =>
        obtain ⟨acc, hacc⟩ := exists_account_of_isListed hlisted
        obtain ⟨privs, hres, -⟩ := hupdated hlisted acc hacc
        rw [hname] at hres
        simp [hres]

end Sync

section Reconcile

variable {env : WorkEnv} {name : String} {s t : Session} {w v : Work}

/-- Whenever UserReady is set, every user of the spec with a password is in the PDB, and no
error was met on the way. -/
def SettlesUsers (s : Site) (e : SiteEvent) (t : Site) : Prop :=
  t.notes = s.notes ∨ ∃ env name note, e = .reconcile env name ∧ t.notes = note :: s.notes ∧
    ∀ db ∈ s.databases.lookup name, ∀ u ∈ env.users, usable u = true →
      note.failed = false ∧
        ((t.detail db.specName.toUpper).accounts.account u.name.toUpper).isSome = true

/-- Where a reconcile gets to create users with passwords, that succeeds. -/
def CreatesUsers (s : Site) : SiteEvent → Prop
  | .reconcile env name =>
    ∀ db ∈ s.databases.lookup name, reached env.toEnv .getDatabase = true →
      db.deletionTimestamp = none → (∃ v, reconcilePDB env name (s.work db) = .next false v) →
      (∃ u ∈ env.users, usable u = true) → env.creatingUsers.Succeeds env.syncing.secret env.users
  | .objects _ => True
  | .dropPDB _ => True

/-- No note is made, and the PDB stays the one it is. -/
structure Unnoted (w v : Work) : Prop where
  notes : v.notes = w.notes
  specName : v.db.specName = w.db.specName

instance : Std.Refl Unnoted := ⟨fun _ => ⟨rfl, rfl⟩⟩

instance : IsTrans Work Unnoted :=
  ⟨fun _ _ _ h h' => ⟨h'.notes.trans h.notes, h'.specName.trans h.specName⟩⟩

theorem unnoted_onSession {α : Type} {p : P α} (h : Within Spares p) : Within Unnoted (onSession p) := by
  intro w
  unfold onSession
  rw [wp_zoom]
  exact (h w.toSession).mono (fun _ _ hs => ⟨rfl, hs.specName⟩) fun _ _ hs => ⟨rfl, hs.specName⟩

theorem unnoted_newPDB : Within Unnoted (newPDB env) := by
  intro w
  unfold wp newPDB
  split
  · next h =>
    split at h
    · obtain ⟨-, rfl⟩ := Res.next.inj h
      exact ⟨rfl, rfl⟩
    · cases h
  · next h =>
    split at h
    · cases h
    · obtain ⟨-, rfl⟩ := Res.done.inj h
      exact ⟨rfl, rfl⟩

theorem unnoted_reportPDB : Within Unnoted (reportPDB env name) := by
  have hnote : Within Unnoted (modify fun w : Work =>
      if (env.call .readyStatus).served then
        { w with reported := w.db.specName.toUpper :: w.reported }
      else w : Prog Work Result Unit) := by
    apply Within.modify
    intro w
    split
    · exact ⟨rfl, rfl⟩
    · exact ⟨rfl, rfl⟩
  exact Within.bind hnote fun _ => unnoted_onSession spares_report

theorem unnoted_reconcilePDB : Within Unnoted (reconcilePDB env name) := by
  apply Within.bind (unnoted_onSession spares_prepare)
  intro _
  apply Within.bind unnoted_newPDB
  intro b
  apply Within.bind unnoted_reportPDB
  intro _
  exact Within.pure b

/-- No note is made, or one after everything that had to be done for the users was done. -/
def Settles (env : WorkEnv) (w v : Work) : Prop :=
  v.notes = w.notes ∨ ∃ note, v.notes = note :: w.notes ∧ ∀ u ∈ env.users, usable u = true →
    note.failed = false ∧
      ((v.detail w.db.specName.toUpper).accounts.account u.name.toUpper).isSome = true

theorem Settles.of_unnoted {u : Work} (h : Settles env w v) (hw : Unnoted u w) : Settles env u v := by
  unfold Settles at h ⊢
  rwa [hw.notes, hw.specName] at h

theorem setUserReady_settles {failed : Bool}
    (h : ∀ u ∈ env.users, usable u = true → failed = false ∧
      ((w.detail w.db.specName.toUpper).accounts.account u.name.toUpper).isSome = true) :
    wp (setUserReady env name failed) (fun _ => Settles env w) (fun _ => Settles env w) w := by
  unfold wp setUserReady
  simp only
  cases env.newUsers with
  | true => exact .inr ⟨⟨name, failed⟩, rfl, h⟩
  | false => exact .inr ⟨⟨name, failed⟩, rfl, h⟩

theorem newUsers_settles
    (hok : (∃ u ∈ env.users, usable u = true) →
      env.creatingUsers.Succeeds env.syncing.secret env.users) :
    wp (newUsers env name) (fun _ => Settles env w) (fun _ => Settles env w) w := by
  have hput : ∀ {e : Engine} {v : Work}, Settles env (w.put e) v → Settles env w v :=
    fun h => h.of_unnoted ⟨rfl, rfl⟩
  have hcreate : (∃ u ∈ env.users, usable u = true) →
      wp (createUsers plainCasing env.sid env.creatingUsers env.syncing.secret w.db.specName env.users)
        (fun _ t => ∀ u ∈ env.users, usable u = true →
          HasUser plainCasing t (plainCasing.toUpper w.db.specName) u.name)
        (fun r _ => r = .panic) w.engine := fun hsome => createUsers_of_succeeds (hok hsome)
  unfold wp newUsers
  unfold wp at hcreate
  cases hrun : createUsers plainCasing env.sid env.creatingUsers env.syncing.secret w.db.specName
      env.users w.engine with
  | next _ e =>
    rw [hrun] at hcreate
    have hready : wp (setUserReady env name false) (fun _ => Settles env (w.put e))
        (fun _ => Settles env (w.put e)) (w.put e) :=
      setUserReady_settles fun u hu husable => ⟨rfl, hcreate ⟨u, hu, husable⟩ u hu husable⟩
    exact hready.mono (fun _ _ h => hput h) fun _ _ h => hput h
  | done r e =>
    rw [hrun] at hcreate
    cases r with
    | error message =>
      have hready : wp (setUserReady env name true) (fun _ => Settles env (w.put e))
          (fun _ => Settles env (w.put e)) (w.put e) := by
        apply setUserReady_settles
        intro u hu husable
        cases hcreate ⟨u, hu, husable⟩
      exact hready.mono (fun _ _ h => hput h) fun _ _ h => hput h
    | panic => exact .inl rfl

theorem syncUsersOf_settles :
    wp (syncUsersOf env name) (fun _ => Settles env w) (fun _ => Settles env w) w := by
  unfold wp syncUsersOf
  simp only
  unfold Settles
  by_cases h : syncSetsReady env.syncing env.catalog (env.spec w.db.specName) env.userResourceVersions
      (w.detail w.db.specName.toUpper).accounts = true
  · right
    refine ⟨⟨name, false⟩, if_pos h, fun u hu _ => ⟨rfl, ?_⟩⟩
    simp only [Function.update_self]
    exact @account_of_syncSetsReady env.catalog env.syncing (env.spec w.db.specName)
      ⟨env.userResourceVersions, [], w.db.conditions⟩ _ u h hu
  · exact .inl (if_neg h)

theorem reconcileCreation_settles
    (hok : (∃ v, reconcilePDB env name w = .next false v) → (∃ u ∈ env.users, usable u = true) →
      env.creatingUsers.Succeeds env.syncing.secret env.users) :
    wp (reconcileCreation env name) (fun _ => Settles env w) (fun _ => Settles env w) w := by
  unfold reconcileCreation
  rw [wp_bind]
  apply ((unnoted_reconcilePDB w).and wp_self).mono
  · rintro b v ⟨hv, hrun⟩
    cases b with
    | true => exact syncUsersOf_settles.mono (fun _ _ h => h.of_unnoted hv) fun _ _ h => h.of_unnoted hv
    | false =>
      simp only [Bool.false_eq_true, if_false]
      rw [wp_bind]
      apply (newUsers_settles (hok ⟨v, hrun⟩)).mono
      · intro _ u hu
        unfold onSession
        rw [wp_zoom]
        apply (spares_noteName u.toSession).mono
        · exact fun _ _ _ => hu.of_unnoted hv
        · exact fun _ _ _ => hu.of_unnoted hv
      · exact fun _ _ h => h.of_unnoted hv
  · rintro r v ⟨hv, -⟩
    exact .inl hv.notes

theorem reconcileWork_settles {s : Site} {db : Database} (hdb : s.databases.lookup name = some db)
    (hok : CreatesUsers s (.reconcile env name)) :
    Settles env (s.work db) (reconcileWork env name (s.work db)).state := by
  apply wp.state (P := Settles env (s.work db))
  unfold reconcileWork onSession
  simp only [wp_bind, wp_zoom, wp_when, wp_finish, wp_get]
  refine ⟨fun _ => .inl rfl, fun _ => ⟨fun _ => .inl rfl, fun hreached => ?_⟩⟩
  split
  · rw [wp_zoom]
    apply (shrinks_reconcileDatabaseDeletion _).mono
    · exact fun _ _ _ => .inl rfl
    · exact fun _ _ _ => .inl rfl
  · next hlive =>
    apply reconcileCreation_settles
    exact hok db hdb (not_not.mp hreached) (Option.not_isSome_iff_eq_none.mp hlive)

theorem settles_step {s t : Site} (e : SiteEvent) (hok : CreatesUsers s e)
    (hstep : siteStep s e = some t) : SettlesUsers s e t := by
  cases e with
  | reconcile env name =>
    obtain rfl := Option.some.inj hstep
    unfold Site.reconcile
    cases hdb : s.databases.lookup name with
    | none => exact .inl rfl
    | some db =>
      rcases reconcileWork_settles hdb hok with hsame | ⟨note, hnotes, husers⟩
      · exact .inl hsame
      · refine .inr ⟨env, name, note, rfl, hnotes, ?_⟩
        intro db' hdb'
        obtain rfl : db = db' := Option.some.inj (hdb.symm.trans hdb')
        exact husers
  | objects w =>
    obtain rfl := Option.some.inj hstep
    exact .inl rfl
  | dropPDB pdb =>
    obtain rfl := Option.some.inj hstep
    exact .inl rfl

/-- In a run in which the users of new PDBs are created without an error, UserReady is only set
for users that are there. -/
theorem settlesUsers_of_createsUsers (s : Site) (es : List SiteEvent)
    (hm : Runs.Meets siteStep CreatesUsers s es) : Runs.EachStep siteStep SettlesUsers s es := by
  apply Runs.eachStep_of_invariant (I := fun _ => True) _ _ trivial hm
  · exact fun _ _ _ _ _ _ => trivial
  · exact fun _ e _ _ hok hstep => settles_step e hok hstep

end Reconcile

section Sample

theorem smoothly_creates_users (users : List UserSpec) (secret : String → String)
    (h : ∀ u ∈ users, hasSecret u = false) :
    (CreateUsersEnv.mk none none none (fun _ => none) smoothly smoothly).Succeeds secret users where
  hostname := rfl
  newClient := rfl
  checkDatabaseState := rfl
  secrets u hu hsecret := by
    rw [h u hu] at hsecret
    cases hsecret
  created := smoothly_answers _
  granted := smoothly_answers _

theorem smooth_users_settled :
    Runs.EachStep siteStep SettlesUsers newSite [.reconcile (creatingEnv 1000 smoothCreate) "pdb1"] ∧
      (newSite.reconcile (creatingEnv 1000 smoothCreate) "pdb1").notes = [⟨"pdb1", false⟩] := by
  constructor
  · apply settlesUsers_of_createsUsers
    refine ⟨?_, fun _ _ => trivial⟩
    intro _ _ _ _ _ _
    apply smoothly_creates_users
    decide
  · decide +kernel

/-- The user cannot be created. -/
def usersFail : WorkEnv :=
  { creatingEnv 1000 smoothCreate with
    creatingUsers := ⟨none, none, none, fun _ => none,
      { smoothly with executed := fun _ => some "ORA-01031" }, smoothly⟩ }

theorem missing_users_ready :
    ¬ Runs.EachStep siteStep SettlesUsers newSite [.reconcile usersFail "pdb1"] := by
  intro h
  have hrun : (newSite.reconcile usersFail "pdb1").notes = [⟨"pdb1", true⟩] ∧
      (newSite.databases.lookup "pdb1").isSome = true ∧ usable passwordScott = true := by
    decide +kernel
  obtain ⟨hnotes, hdb, husable⟩ := hrun
  obtain ⟨db, hdb⟩ := Option.isSome_iff_exists.mp hdb
  rcases (h _ rfl).1 with hsame | ⟨env, name, note, he, hnote, husers⟩
  · rw [hnotes] at hsame
    cases hsame
  · obtain ⟨rfl, rfl⟩ := SiteEvent.reconcile.inj he
    rw [hnotes] at hnote
    obtain rfl : ⟨"pdb1", true⟩ = note := (List.cons.inj hnote).1
    have hfailed := (husers db hdb passwordScott List.mem_cons_self husable).1
    cases hfailed

end Sample

end ElCarro.Databases
