import ElCarro.Daemon.CreateCDB
import ElCarro.Instance.ParameterCheck
import ElCarro.Instance.RecordedParameters

/-! # Parameters that users may not set

A parameter is protected when the controller sets it in a new database, or when it is
reserved. Creation compares the names of a request with those of the defaults, and the
check before an update with the reserved ones, letter by letter; the database does not
tell one case from the other. An update sets what the spec has by then.
-/

namespace ElCarro.Instance.Parameters

open GoTime K8s Api Flow Runs Reconciler
open ElCarro.Daemon (Protected internalParameters CreateCDBRequest SparesAtCreation Spares UserItem
  sparesAtCreation_iff)

variable {engine : Engine}

section Statements

variable (d : Daemon)

/-- The statements of the loop over a map that the database executes. -/
def statements (params : StrMap) : List String → Table engine → List (String × String)
  | [], _ => []
  | key :: rest, t =>
    match setParameter d t key (valueAt params key) with
    | none => []
    | some (_, t) => (key, valueAt params key) :: statements params rest t

/-- The loop changes the database by these statements. -/
theorem setEach_eq_statements {params : StrMap} {keys : List String} {t : Table engine} {restart : Bool} :
    (setEach d params keys t restart).2 = (statements d params keys t).foldl
      (fun t statement => t.alterSystem (fileOnly t statement.1) statement.1 statement.2) t := by
  induction keys generalizing t restart with
  | nil => rfl
  | cons key rest ih =>
    simp only [setEach, statements]
    cases hset : setParameter d t key (valueAt params key) with
    | none => rfl
    | some res =>
      obtain ⟨isStatic, u⟩ := res
      obtain ⟨-, -, -, -, heq⟩ := setParameter_eq_some.mp hset
      obtain ⟨-, rfl⟩ := Prod.mk.inj heq
      exact ih

/-- None of the statements sets a protected parameter, in whatever case it is written. -/
def SparesProtected (executed : List (String × String)) : Prop :=
  ∀ statement ∈ executed, ¬ Protected (lowerName statement.1)

instance (executed : List (String × String)) : Decidable (SparesProtected executed) :=
  inferInstanceAs (Decidable (∀ _ ∈ _, _))

end Statements

section Maps

variable {d : Daemon} {t : Table engine} {params : StrMap} {keys order : List String} {key : String}

/-- Where the map names a protected parameter, it does so in another case and with a value that
is not accepted without the quotes of a string. -/
def Harmless (params : StrMap) : Prop :=
  ∀ key ∈ params, Protected (lowerName key) →
    lowerName key ≠ key ∧ parameterNonStringMatcher (valueAt params key) = false

/-- The check rejects the map, or the map is harmless. -/
def Admissible (params : StrMap) : Prop :=
  (∃ key ∈ params, key ∈ reservedParameters) ∨ Harmless params

/-- However the database answers, a map that passes the check sets no protected parameter. -/
def SparesInUpdate (params : StrMap) : Prop :=
  ∀ (engine : Engine) (t t' : Table engine) (d d' : Daemon) (order order' : List String)
    (mw : MaintenanceWindow) (now : Time), Ranges order params → Ranges order' params →
      (fetchCurrentParameterState d t order mw now).isSome = true →
        SparesProtected (statements d' params order' t')

/-- The database finds a parameter only under its name in lower case. -/
theorem entries_of_misspelled (h : lowerName key ≠ key) : t.entries key = none := by
  cases hentry : t.entries key with
  | none => rfl
  | some p => exact absurd (t.lower key p hentry) h

theorem harmless_empty : Harmless ∅ := fun _ h => absurd h Finmap.notMem_empty

theorem sparesProtected_of_harmless (h : Harmless params) (hkeys : ∀ key ∈ keys, key ∈ params) :
    SparesProtected (statements d params keys t) := by
  induction keys generalizing t with
  | nil => exact fun _ hmem => by cases hmem
  | cons key rest ih =>
    unfold statements
    cases hset : setParameter d t key (valueAt params key) with
    | none => exact fun _ hmem => by cases hmem
    | some res =>
      intro statement hmem hprotected
      rcases List.mem_cons.mp hmem with rfl | hmem
      · obtain ⟨hother, hvalue⟩ := h key (hkeys key List.mem_cons_self) hprotected
        obtain ⟨-, hvalid, -⟩ := setParameter_eq_some.mp hset
        rw [isStringParam, entries_of_misspelled hother] at hvalid
        rw [isValidParameterValue, Option.any_none, Bool.false_or, hvalue] at hvalid
        cases hvalid
      · exact ih (fun k hk => hkeys k (List.mem_cons_of_mem key hk)) statement hmem hprotected

/-- A map that passes the check is harmless if it is admissible. -/
theorem harmless_of_check {mw : MaintenanceWindow} {now : Time} {state : StrMap × StrMap}
    (h : Admissible params) (horder : Ranges order params)
    (hcheck : fetchCurrentParameterState d t order mw now = some state) : Harmless params := by
  rcases h with ⟨key, hkey, hreserved⟩ | h
  · obtain ⟨hnone, -⟩ := fetchCurrentParameterState_eq_some.mp hcheck
    exact absurd hreserved (hnone key ((horder.mem key).mpr hkey))
  · exact h

/-- What is recorded of a harmless map is harmless: the other spellings have no value. -/
theorem harmless_parameterState (h : Harmless params) (horder : Ranges order params) :
    Harmless (parameterState t order).2 := by
  intro key hkey hprotected
  obtain ⟨value, hvalue⟩ := Finmap.mem_iff.mp hkey
  have hrecorded := hvalue
  rw [parameterState_dynamic] at hrecorded
  split at hrecorded
  · next hmem =>
    obtain ⟨hother, -⟩ := h key ((horder.mem key).mp hmem.1) hprotected
    have hempty : currentValue t key = "" := by
      rw [currentValue, entries_of_misspelled hother]
      rfl
    refine ⟨hother, ?_⟩
    rw [valueAt, hvalue, ← hrecorded, hempty]
    decide
  · cases hrecorded

theorem toLower_toLower (c : Char) : c.toLower.toLower = c.toLower := by
  by_cases h : c.toNat ≥ 65 ∧ c.toNat ≤ 90
  · have hletters : ∀ n : Fin 26, (Char.ofNat (n.val + 65)).toLower.toLower =
        (Char.ofNat (n.val + 65)).toLower := by
      decide
    have hc := hletters ⟨c.toNat - 65, by omega⟩
    simp only [Nat.sub_add_cancel h.1, Char.ofNat_toNat] at hc
    exact hc
  · have hsame : c.toLower = c := by
      unfold Char.toLower
      rw [dif_neg]
      intro hr
      exact h hr
    rw [hsame, hsame]

theorem lowerName_lowerName (name : String) : lowerName (lowerName name) = lowerName name := by
  simp only [lowerName, String.toList_ofList, List.map_map, Function.comp_def, toLower_toLower]

/-- Exactly the admissible maps set no protected parameter. -/
theorem sparesInUpdate_iff : SparesInUpdate params ↔ Admissible params := by
  constructor
  · intro h
    by_contra hnot
    obtain ⟨hreserved, hharm⟩ := not_or.mp hnot
    simp only [not_exists, not_and] at hreserved
    simp only [Harmless, not_forall, not_and] at hharm
    obtain ⟨key, hkey, hprotected, hset⟩ := hharm
    obtain ⟨rest, horder⟩ := Ranges.exists_cons hkey
    -- a database that has the parameter as a string, and takes every statement
    let t := Table.single (lowerName key) ⟨.immediate, true, "", "", ""⟩ (lowerName_lowerName key)
    have hcheck : (fetchCurrentParameterState steady t (key :: rest) openWindow 0).isSome = true := by
      apply Option.isSome_iff_exists.mpr
      refine ⟨_, fetchCurrentParameterState_eq_some.mpr ⟨?_, ?_, ?_, by decide, rfl⟩⟩
      · exact fun k hk => hreserved k ((horder.mem k).mp hk)
      · exact fun _ _ => rfl
      · exact fun _ => rfl
    have hvalid : isValidParameterValue (valueAt params key) (isStringParam t key) = true := by
      by_cases hname : lowerName key = key
      · have hstring : isStringParam t key = true := by
          simp [isStringParam, t, Table.single, hname]
        simp [isValidParameterValue, hstring]
      · simp [isValidParameterValue, Bool.eq_true_of_not_eq_false (hset hname)]
    have hexecuted : (key, valueAt params key) ∈ statements steady params (key :: rest) t := by
      have hstatement := (@setParameter_eq_some plain steady t key (valueAt params key) _).mpr
        ⟨rfl, hvalid, rfl, by simp [t, Table.single], rfl⟩
      simp only [statements, hstatement]
      exact List.mem_cons_self
    exact h plain t t steady steady _ _ openWindow 0 horder horder hcheck _ hexecuted hprotected
  · intro h engine t t' d d' order order' mw now horder horder' hcheck
    obtain ⟨state, hstate⟩ := Option.isSome_iff_exists.mp hcheck
    exact sparesProtected_of_harmless (harmless_of_check h horder hstate)
      fun key hkey => (horder'.mem key).mp hkey

end Maps

section System

/-- The statements that a reconcile has executed, for an update or for a rollback. -/
def System.statements (σ : System engine) (env : Env) (v : Visit) : List (String × String) :=
  match σ.work env v with
  | some .update => Parameters.statements v.daemon σ.params v.order σ.table
  | some .recover =>
    if ¬ v.daemon.recoverConfigFile then []
    else
      match bounceDatabase v.daemon σ.table.recoverConfigFile with
      | (false, _) => []
      | (true, t) => Parameters.statements v.daemon σ.rollbackParams v.recoveryOrder t
  | _ => []

/-- No reconcile sets a protected parameter. -/
def Spared (σ : System engine) (e : SystemEvent engine) (_ : System engine) : Prop :=
  ∀ env v, e = .reconcile env v → SparesProtected (σ.statements env v)

/-- The parameters of the spec have passed the check, and are to be set or recorded. -/
def updating (inst : Instance) : Bool :=
  (readyView inst).any fun view =>
    view.2 = .parameterUpdateInProgress || view.2 = .parameterUpdateComplete

/-- The map that is checked is an admissible one, and it is not replaced before the update is
over. -/
def Careful (σ : System engine) : SystemEvent engine → Prop
  | .reconcile env v => σ.work env v = some .check → Admissible σ.params
  | .other (.editSpec spec) =>
    updating σ.world.stored = true → spec.parameters = σ.world.stored.spec.parameters
  | _ => True

instance (params : StrMap) : Decidable (Harmless params) :=
  decidable_of_iff (∀ key ∈ params.keys, Protected (lowerName key) →
    lowerName key ≠ key ∧ parameterNonStringMatcher (valueAt params key) = false)
    (forall_congr' fun _ => imp_congr_left Finmap.mem_keys)

instance (params : StrMap) : Decidable (Admissible params) :=
  decidable_of_iff ((∃ key ∈ params.keys, key ∈ reservedParameters) ∨ Harmless params)
    (or_congr_left (exists_congr fun _ => and_congr_left' Finmap.mem_keys))

instance (σ : System engine) : (e : SystemEvent engine) → Decidable (Careful σ e)
  | .reconcile _ _ => inferInstanceAs (Decidable (_ → _))
  | .other (.editSpec _) => inferInstanceAs (Decidable (_ → _))
  | .other (.reconcile _) | .other (.deleteInstance _) | .other (.writeStatus _ _ _)
  | .other (.addSnapshot _ _) | .other (.setSnapshotStatus _ _) | .other (.removeSnapshot _)
  | .other .stsGone | .other (.addPvc _) | .other (.pvcGone _) | .editWindow _ | .alter _ =>
    .isTrue trivial

end System

section Runs

variable {σ τ : System engine} {env : Env} {v : Visit} {inst : Instance}

/-- What a rollback sets is harmless, and so is the request while an update is under way. -/
structure Kept (σ : System engine) : Prop where
  recorded : Harmless σ.rollbackParams
  requested : updating σ.world.stored = true → Harmless σ.params

theorem updating_of_view {view : CondStatus × Reason} (hview : readyView inst = some view)
    (h : view.2 = .parameterUpdateInProgress ∨ view.2 = .parameterUpdateComplete) :
    updating inst = true := by
  rw [updating, hview]
  simpa using h

theorem updating_of_entered {r : Reason} (hinst : entered (σ.answered env v) σ.world.session = some inst)
    (hreason : (readyCond inst).map (·.reason) = some r)
    (hr : r = .parameterUpdateInProgress ∨ r = .parameterUpdateComplete) :
    updating σ.world.stored = true := by
  have hbegun : Begun σ.world.stored inst := .of_entered rfl hinst
  have hne : r ≠ .createInProgress := by
    rcases hr with rfl | rfl <;> decide
  obtain ⟨view, hview, rfl⟩ := hbegun.readyView hreason hne
  exact updating_of_view hview hr

/-- A check that the machine makes and the map passes leaves a harmless map. -/
theorem harmless_of_entered (hcareful : Careful σ (.reconcile env v)) (horder : Ranges v.order σ.params)
    (hreads : reads (σ.answered env v) σ.world = true)
    (hinst : entered (σ.answered env v) σ.world.session = some inst)
    (hreason : (readyCond inst).map (·.reason) = some .createComplete)
    (hopen : (σ.answered env v).maintenanceWindow = true)
    (hpass : (σ.answered env v).parameterState.isSome = true) : Harmless σ.params := by
  have hwork : σ.work env v = some .check := work_of_entered hreads hopen hinst hreason
  simp only [System.answered, Option.isSome_map] at hpass
  obtain ⟨state, hstate⟩ := Option.isSome_iff_exists.mp hpass
  exact harmless_of_check (hcareful hwork) horder hstate

theorem onParameters_step (hk : Kept σ) (hcareful : Careful σ (.reconcile env v))
    (horder : Ranges v.order σ.params) :
    OnParameters (· = σ.world.stored.spec.parameters) (fun params => Harmless (params.getD ∅))
      (Reconciler.reconcile (σ.answered env v) σ.world).stored := by
  apply onParameters_reconcile
  · exact ⟨rfl, hk.recorded⟩
  · intro inst hreads hinst hreason hopen params hstate
    have hpass : (σ.answered env v).parameterState.isSome = true := by rw [hstate]; rfl
    have hharmless := harmless_of_entered hcareful horder hreads hinst hreason hopen hpass
    obtain ⟨state, hfetch, rfl⟩ := Option.map_eq_some_iff.mp hstate
    obtain ⟨-, -, -, -, rfl⟩ := fetchCurrentParameterState_eq_some.mp hfetch
    exact harmless_parameterState hharmless horder
  · rintro inst - hinst hreason params rfl
    exact hk.requested (updating_of_entered hinst hreason (.inr rfl))

/-- A reconcile begins or completes an update only of a harmless map. -/
theorem shows_step (hk : Kept σ) (hcareful : Careful σ (.reconcile env v))
    (horder : Ranges v.order σ.params) :
    Shows (fun view => view.2 = .parameterUpdateInProgress ∨ view.2 = .parameterUpdateComplete →
        Harmless σ.params) (Reconciler.reconcile (σ.answered env v) σ.world).stored := by
  apply shows_reconcile
  · intro view hview _ hupdating
    exact hk.requested (updating_of_view hview hupdating)
  · intro inst hreads hinst view hnext _ hupdating
    simp only [nextView] at hnext
    split at hnext
    · cases hnext
    · next hopen =>
      have hopen : (σ.answered env v).maintenanceWindow = true := not_not.mp hopen
      split at hnext
      · next hreason =>
        cases hnext
        apply harmless_of_entered hcareful horder hreads hinst hreason hopen
        by_contra hfailed
        simp [hfailed] at hupdating
      · next hreason => exact hk.requested (updating_of_entered hinst hreason (.inl rfl))
      · cases hnext
        simp at hupdating
      · split at hnext
        · cases hnext
          simp at hupdating
        · cases hnext
      · cases hnext

theorem kept_reconcile (hk : Kept σ) (hcareful : Careful σ (.reconcile env v))
    (hstep : σ.step (.reconcile env v) = some τ) :
    Kept τ ∧ SparesProtected (σ.statements env v) := by
  simp only [System.step] at hstep
  split at hstep
  · next horders =>
    obtain ⟨horder, hrecovery⟩ := horders
    obtain ⟨hspec, hcurrent⟩ := onParameters_step hk hcareful horder
    have hshows := shows_step hk hcareful horder
    obtain rfl := Option.some.inj hstep
    constructor
    · constructor
      · exact hcurrent
      · intro hupdating
        have hview := hupdating
        rw [updating, Option.any_eq_true] at hview
        obtain ⟨view, hview, hreason⟩ := hview
        have hreason : view.2 = .parameterUpdateInProgress ∨ view.2 = .parameterUpdateComplete := by
          simpa using hreason
        have htracked : parameterReason view.2 = true := by
          rcases hreason with h | h <;> rw [h] <;> rfl
        have hharmless := hshows view hview htracked hreason
        unfold System.params at hharmless ⊢
        dsimp only
        rwa [hspec]
    · unfold System.statements
      split
      · next hwork =>
        obtain ⟨view, hview, hreason⟩ := readyView_of_work hwork
        have hupdating : updating σ.world.stored = true := updating_of_view hview (.inl hreason)
        exact sparesProtected_of_harmless (hk.requested hupdating) fun key hkey =>
          (horder.mem key).mp hkey
      · split
        · exact fun _ h => by cases h
        · split
          · exact fun _ h => by cases h
          · exact sparesProtected_of_harmless hk.recorded fun key hkey => (hrecovery.mem key).mp hkey
      · exact fun _ h => by cases h
  · cases hstep

theorem kept_other {e : Event} {w : World} (hk : Kept σ) (hcareful : Careful σ (.other e))
    (hw : otherStep σ.world e = some w) : Kept { σ with world := w } := by
  cases e with
  | reconcile env => cases hw
  | editSpec spec =>
    obtain rfl := Option.some.inj hw
    constructor
    · exact hk.recorded
    · intro hupdating
      have hsame : spec.parameters = σ.world.stored.spec.parameters := hcareful hupdating
      have hharmless := hk.requested hupdating
      unfold System.params at hharmless ⊢
      change Harmless (spec.parameters.getD ∅)
      rwa [hsame]
  | addSnapshot name pvc =>
    simp only [otherStep, Reconciler.step] at hw
    split at hw
    · cases hw
    · obtain rfl := Option.some.inj hw
      exact ⟨hk.recorded, hk.requested⟩
  | setSnapshotStatus name status =>
    obtain ⟨snap, -, rfl⟩ := Option.map_eq_some_iff.mp hw
    exact ⟨hk.recorded, hk.requested⟩
  | deleteInstance now | writeStatus backupID locked names | removeSnapshot name | stsGone
  | addPvc name | pvcGone name =>
    obtain rfl := Option.some.inj hw
    exact ⟨hk.recorded, hk.requested⟩

theorem kept_step {e : SystemEvent engine} (hk : Kept σ) (hcareful : Careful σ e)
    (hstep : σ.step e = some τ) : Kept τ ∧ Spared σ e τ := by
  have hother : (∀ env v, e ≠ .reconcile env v) → Spared σ e τ :=
    fun hne env v he => absurd he (hne env v)
  cases e with
  | reconcile env v =>
    obtain ⟨hkept, hspared⟩ := kept_reconcile hk hcareful hstep
    refine ⟨hkept, ?_⟩
    rintro _ _ ⟨⟩
    exact hspared
  | editWindow window =>
    obtain rfl := Option.some.inj hstep
    exact ⟨⟨hk.recorded, hk.requested⟩, hother (by simp)⟩
  | alter table =>
    obtain rfl := Option.some.inj hstep
    exact ⟨⟨hk.recorded, hk.requested⟩, hother (by simp)⟩
  | other e =>
    obtain ⟨w, hw, rfl⟩ := Option.map_eq_some_iff.mp hstep
    exact ⟨kept_other hk hcareful hw, hother (by simp)⟩

/-- In a run in which the maps that are checked are admissible and are not replaced during an
update, no reconcile sets a protected parameter. -/
theorem spared_of_careful (σ : System engine) (es : List (SystemEvent engine))
    (hcurrent : σ.world.stored.status.currentParameters = none)
    (hready : updating σ.world.stored = false) (hm : Meets System.step Careful σ es) :
    EachStep System.step Spared σ es := by
  have hkept : Kept σ := by
    constructor
    · rw [System.rollbackParams, hcurrent]
      exact harmless_empty
    · intro h
      rw [hready] at h
      cases h
  apply eachStep_of_invariant _ _ hkept hm
  · exact fun _ _ _ hk hok hstep => (kept_step hk hok hstep).1
  · exact fun _ _ _ hk hok hstep => (kept_step hk hok hstep).2

/-- When the protected parameters stay as the controller sets them: for each request at creation,
for each map of an update, and in runs. -/
theorem protected_parameters_spared (req : CreateCDBRequest) (params : StrMap) :
    (SparesAtCreation req ↔
      req.databaseName = "" ∨ ∀ item, UserItem req item → Spares req.databaseName item) ∧
    (SparesInUpdate params ↔ Admissible params) ∧
    ∀ (engine : Engine) (σ : System engine) (es : List (SystemEvent engine)),
      σ.world.stored.status.currentParameters = none → updating σ.world.stored = false →
        Meets System.step Careful σ es → EachStep System.step Spared σ es :=
  ⟨sparesAtCreation_iff, sparesInUpdate_iff, fun _ => spared_of_careful⟩

end Runs

section Sample

def createRequest (params : List String) : CreateCDBRequest := ⟨"GCLOUD", "", 0, some params, "gke"⟩

def oneParameter (key value : String) : StrMap := (∅ : StrMap).insert key value

def standbyTable : Table plain :=
  .single "standby_file_management" ⟨.immediate, true, "AUTO", "AUTO", "AUTO"⟩ (by decide)

/-- A visit to an instance that has the parameter recorded. -/
def nextVisit (key : String) : Visit := ⟨0, 0, steady, [key], [key]⟩

/-- An internal parameter in capital letters gets into a new database, a reserved one into one that
runs. -/
theorem capital_letters_set_protected :
    ¬ SparesAtCreation (createRequest ["COMMON_USER_PREFIX=xyz"]) ∧
      ¬ SparesInUpdate (oneParameter "STANDBY_FILE_MANAGEMENT" "MANUAL") ∧
      ¬ EachStep System.step Spared (createdSystem standbyTable)
        ([requestParameter "STANDBY_FILE_MANAGEMENT" "MANUAL", visit "STANDBY_FILE_MANAGEMENT"] ++
          [.reconcile (calm 0) (nextVisit "STANDBY_FILE_MANAGEMENT")]) := by
  refine ⟨?_, ?_, ?_⟩
  · rw [sparesAtCreation_iff]
    rintro (hname | hitems)
    · exact absurd hname (by decide)
    · have hitem : UserItem (createRequest ["COMMON_USER_PREFIX=xyz"]) "COMMON_USER_PREFIX=xyz" := by
        refine ⟨(oneParameter "COMMON_USER_PREFIX" "xyz").insert "DB_DOMAIN" "gke", rfl,
          "COMMON_USER_PREFIX", ?_, ?_, rfl⟩
        · decide +kernel
        · decide
      have hspares := hitems _ hitem ("common_user_prefix", "xyz") (by decide +kernel) (by decide)
      obtain ⟨key, hkey, hassigned⟩ := hspares
      revert hassigned
      revert key
      decide +kernel
  · rw [sparesInUpdate_iff]
    decide +kernel
  · intro h
    have hrun : ((run System.step (createdSystem standbyTable)
        [requestParameter "STANDBY_FILE_MANAGEMENT" "MANUAL", visit "STANDBY_FILE_MANAGEMENT"]).any
          fun σ => ¬ SparesProtected (σ.statements (calm 0) (nextVisit "STANDBY_FILE_MANAGEMENT")) &&
            (σ.step (.reconcile (calm 0) (nextVisit "STANDBY_FILE_MANAGEMENT"))).isSome) = true := by
      decide +kernel
    obtain ⟨σ, hσ, hbad⟩ := (Option.any_eq_true _ _).mp hrun
    obtain ⟨hset, hstep⟩ := (Bool.and_eq_true _ _).mp hbad
    obtain ⟨τ, hτ⟩ := Option.isSome_iff_exists.mp hstep
    exact of_decide_eq_true hset (h.last hσ hτ _ _ rfl)

theorem ordinary_parameters_spared :
    SparesAtCreation (createRequest ["open_cursors=500"]) ∧
      SparesInUpdate (oneParameter "processes" "400") ∧
      EachStep System.step Spared (createdSystem processesTable)
        [requestParameter "processes" "400", visit "processes", visit "processes"] := by
  obtain ⟨hcreation, hupdate, hruns⟩ := protected_parameters_spared
    (createRequest ["open_cursors=500"]) (oneParameter "processes" "400")
  refine ⟨hcreation.mpr (.inr ?_), hupdate.mpr (by decide +kernel), ?_⟩
  · rintro _ ⟨merged, hmerged, key, hkey, -, rfl⟩
    obtain rfl : (oneParameter "open_cursors" "500").insert "DB_DOMAIN" "gke" = merged :=
      Except.ok.inj hmerged
    have heach : ∀ key ∈ ((oneParameter "open_cursors" "500").insert "DB_DOMAIN" "gke").keys,
        ∀ a ∈ Daemon.assignments (key ++ "=" ++
          valueAt ((oneParameter "open_cursors" "500").insert "DB_DOMAIN" "gke") key),
          ¬ Protected a.1 := by
      decide +kernel
    exact fun a ha hprotected => absurd hprotected (heach key (Finmap.mem_keys.mpr hkey) a ha)
  · apply hruns
    · rfl
    · decide +kernel
    · decide +kernel

end Sample

end ElCarro.Instance.Parameters
