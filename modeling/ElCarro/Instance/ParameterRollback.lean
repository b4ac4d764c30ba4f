import ElCarro.Instance.ParameterTable

/-! # What a rollback of parameters restores

The check before an update records the values of the parameters that it takes for
dynamic. A rollback sets these again; everything else comes from the copy of the
parameter file. So a rollback gets the old values back exactly when each recorded
value can be set, and when the copy of the file has the current value of each
parameter that the update writes to the file only.
-/

namespace ElCarro.Instance.Parameters

open GoTime K8s Api

variable {engine : Engine} {d : Daemon} {t t' : Table engine} {params dynamic : StrMap}
  {order keys : List String} {key value name : String} {p : Parameter}

/-- A loop over a map visits each key once, in some order. -/
structure Ranges (order : List String) (params : StrMap) : Prop where
  nodup : order.Nodup
  mem : ∀ key, key ∈ order ↔ key ∈ params

theorem Ranges.exists (params : StrMap) : ∃ order, Ranges order params :=
  ⟨params.keys.toList, Finset.nodup_toList _, fun _ => Finset.mem_toList.trans Finmap.mem_keys⟩

/-- A loop can begin at any key. -/
theorem Ranges.exists_cons (h : key ∈ params) : ∃ rest, Ranges (key :: rest) params := by
  refine ⟨(params.keys.erase key).toList, ?_, ?_⟩
  · simp [Finset.nodup_toList]
  · intro k
    by_cases hk : k = key
    · simp [hk, h]
    · simp [hk, Finmap.mem_keys]

section Recorded

theorem parameterState_dynamic :
    (parameterState t keys).2.lookup key =
      if key ∈ keys ∧ isStaticType t key = false then some (currentValue t key) else none := by
  induction keys with
  | nil => simp [parameterState]
  | cons k rest ih =>
    simp only [parameterState]
    split
    · next hk =>
      rw [ih]
      by_cases hkey : key = k
      · simp [hkey, hk]
      · simp [hkey]
    · next hk =>
      by_cases hkey : key = k
      · subst hkey
        simp [hk]
      · rw [Finmap.lookup_insert_of_ne _ hkey, ih]
        simp [hkey]

theorem fetchCurrentParameterState_eq_some {mw : MaintenanceWindow} {now : Time}
    {state : StrMap × StrMap} :
    fetchCurrentParameterState d t order mw now = some state ↔
      (∀ key ∈ order, key ∉ reservedParameters) ∧ (∀ key ∈ order, d.query key) ∧
        (order.any (isStaticType t) = true → hasValidTimeRanges mw = true) ∧
        inRange mw now = true ∧ state = parameterState t order := by
  unfold fetchCurrentParameterState
  by_cases h1 : order.any (· ∈ reservedParameters) = true
  · simp_all
  · by_cases h2 : order.all d.query = true
    · by_cases h3 : order.any (isStaticType t) = true ∧ ¬ hasValidTimeRanges mw = true
      · simp_all
      · by_cases h4 : inRange mw now = true
        · rw [if_neg h1, if_neg (not_not.mpr h2), if_neg h3, if_neg (not_not.mpr h4)]
          constructor
          · intro h
            refine ⟨by simpa using h1, by simpa using h2, ?_, h4, (Option.some.inj h).symm⟩
            intro hstatic
            by_contra hvalid
            exact h3 ⟨hstatic, hvalid⟩
          · rintro ⟨-, -, -, -, rfl⟩
            rfl
        · simp_all
    · simp_all

/-- An unknown parameter has no value that could be set again. -/
theorem known_of_valid
    (h : isValidParameterValue (currentValue t key) (isStringParam t key) = true) :
    (t.entries key).isSome := by
  cases hp : t.entries key with
  | none => simp [isValidParameterValue, currentValue, isStringParam, hp,
      parameterNonStringMatcher] at h
  | some p => rfl

theorem known_of_static (h : isStaticType t key = true) : (t.entries key).isSome := by
  cases hp : t.entries key with
  | none => simp [isStaticType, hp] at h
  | some p => rfl

theorem isStringParam_of_entry (h : t.entries key = some p) : isStringParam t key = p.isString := by
  simp [isStringParam, h]

theorem currentValue_of_entry (h : t.entries key = some p) : currentValue t key = p.value := by
  simp [currentValue, h]

end Recorded

section Recovery

variable {only : Bool}

/-- A parameter after the copy of the file is in place and the database has started. -/
def Parameter.recovered (engine : Engine) (name : String) (p : Parameter) : Parameter :=
  { p with spfile := p.backup, value := engine.convert name p.backup }

theorem recovered_entries :
    (t.recoverConfigFile.startup.backupConfigFile).entries name =
      (t.entries name).map (·.recovered engine name) := by
  cases hp : t.entries name with
  | none => simp [Table.recoverConfigFile, Table.startup, Table.backupConfigFile, Table.map, hp]
  | some p =>
    simp [Table.recoverConfigFile, Table.startup, Table.backupConfigFile, Table.map, hp,
      Parameter.recovered]

theorem sameKinds_recovered : SameKinds t t.recoverConfigFile.startup.backupConfigFile := by
  intro name
  rw [recovered_entries, Option.map_map]
  rfl

theorem bounceDatabase_eq_true {u : Table engine} :
    bounceDatabase d t = (true, u) ↔ d.shutdown = true ∧ d.startup = true ∧
      d.backupConfigFile = true ∧ u = t.startup.backupConfigFile := by
  unfold bounceDatabase
  split
  · next h =>
    rcases h with h | h <;> simp [h]
  · split
    · simp_all
    · constructor
      · intro h
        simp_all
      · rintro ⟨-, -, -, rfl⟩
        rfl

/-- A restart that fails leaves the copy of the file alone. -/
theorem bounceDatabase_eq_false {u : Table engine} (h : bounceDatabase d t = (false, u)) :
    u = t ∨ u = t.startup := by
  unfold bounceDatabase at h
  split at h
  · exact .inl (Prod.mk.inj h).2.symm
  · split at h
    · exact .inr (Prod.mk.inj h).2.symm
    · cases h

/-- A rollback that finishes has gone through every step. -/
theorem initiateRecovery_true (h : (initiateRecovery d t dynamic order).1 = true) :
    (setEach d dynamic order t.recoverConfigFile.startup.backupConfigFile false).1.isSome ∧
      (initiateRecovery d t dynamic order).2 =
        (setEach d dynamic order t.recoverConfigFile.startup.backupConfigFile false).2 := by
  unfold initiateRecovery at h ⊢
  split at h
  · cases h
  · rw [if_neg ‹_›]
    cases hbounce : bounceDatabase d t.recoverConfigFile with
    | mk ok u =>
      rw [hbounce] at h
      cases ok with
      | false => cases h
      | true =>
        obtain ⟨-, -, -, rfl⟩ := bounceDatabase_eq_true.mp hbounce
        exact ⟨h, rfl⟩

/-- Where a finished rollback leaves the value of a parameter. -/
theorem recovered_value (h : (initiateRecovery d t dynamic order).1 = true)
    (hnodup : order.Nodup) (hknown : Known t order) (hp : t.entries key = some p) :
    ((initiateRecovery d t dynamic order).2.entries key).map (·.value) =
      some (if key ∈ order ∧ fileOnly t key = false then
        engine.convert key (valueAt dynamic key) else engine.convert key p.backup) := by
  obtain ⟨hsome, heq⟩ := initiateRecovery_true h
  have hkinds : SameKinds t t.recoverConfigFile.startup.backupConfigFile := sameKinds_recovered
  have hknown' : Known t.recoverConfigFile.startup.backupConfigFile order := by
    intro k hk
    rw [hkinds.known]
    exact hknown k hk
  have hspec : SetSpec dynamic order _
      (setEach d dynamic order t.recoverConfigFile.startup.backupConfigFile false) :=
    setEach_spec hnodup hknown'
  have hentry : t.recoverConfigFile.startup.backupConfigFile.entries key =
      some (p.recovered engine key) := by
    rw [recovered_entries, hp]
    rfl
  rw [heq]
  by_cases hkey : key ∈ order
  · rcases hspec.each key hkey with ⟨hnone, -⟩ | ⟨-, hset⟩
    · rw [hnone] at hsome
      cases hsome
    · rw [hset, hentry, hkinds.fileOnly]
      cases hf : fileOnly t key <;> simp [Parameter.set, Parameter.recovered, hkey]
  · rw [hspec.others key hkey, hentry]
    simp [Parameter.recovered, hkey]

/-- A rollback finishes when the daemon answers and each recorded value passes the check. -/
theorem initiateRecovery_succeeds (hquery : ∀ key, d.query key)
    (halter : ∀ key value, d.alter key value) (hbounce : d.shutdown = true ∧ d.startup = true ∧
      d.backupConfigFile = true) (hfile : d.recoverConfigFile = true) (hknown : Known t order)
    (hvalid : ∀ key ∈ order, isValidParameterValue (valueAt dynamic key) (isStringParam t key)) :
    (initiateRecovery d t dynamic order).1 = true := by
  have hkinds : SameKinds t t.recoverConfigFile.startup.backupConfigFile := sameKinds_recovered
  have hset : (setEach d dynamic order t.recoverConfigFile.startup.backupConfigFile false).1 =
      some (false || order.any (fileOnly t.recoverConfigFile.startup.backupConfigFile)) := by
    apply setEach_succeeds
    · intro k hk
      rw [hkinds.known]
      exact hknown k hk
    · exact hquery
    · exact fun k _ => halter k
    · intro k hk
      rw [hkinds.isStringParam]
      exact hvalid k hk
  have hstart : bounceDatabase d t.recoverConfigFile =
      (true, t.recoverConfigFile.startup.backupConfigFile) :=
    bounceDatabase_eq_true.mpr ⟨hbounce.1, hbounce.2.1, hbounce.2.2, rfl⟩
  unfold initiateRecovery
  rw [if_neg (not_not.mpr hfile), hstart]
  simp only [hset, Option.isSome_some]

end Recovery

section Update

theorem sameKinds_startup : SameKinds t t.startup := sameKinds_map fun _ _ => ⟨rfl, rfl⟩

theorem startup_entry (hp : t.entries name = some p) :
    t.startup.entries name = some { p with value := engine.convert name p.spfile } := by
  simp [Table.startup, Table.map, hp]

/-- The update can change a parameter that it writes to the file only: the file has another
value, or the restart that follows when every value passes the check has. -/
def Changeable (t : Table engine) (params : StrMap) (key value : String) (p : Parameter) : Prop :=
  isValidParameterValue value p.isString = true ∧
    (value ≠ p.spfile ∨ engine.convert key value ≠ p.value ∧
      ∀ k v, params.lookup k = some v → isValidParameterValue v (isStringParam t k) = true)

theorem valueAt_of_lookup (h : params.lookup key = some value) : valueAt params key = value := by
  simp [valueAt, h]

theorem setParameters_eq_none {u : Table engine} (h : setParameters d t params order = (none, u)) :
    u = (setEach d params order t false).2 := by
  unfold setParameters at h
  split at h
  · next heq =>
    rw [heq]
    exact (Prod.mk.inj h).2.symm
  · next heq =>
    rw [heq]
    exact (Prod.mk.inj h).2.symm

theorem setParameters_eq_some {u : Table engine} {restart : Bool}
    (h : setParameters d t params order = (some restart, u)) :
    setEach d params order t false = (some restart, u) := by
  unfold setParameters at h
  split at h
  · next heq =>
    obtain ⟨hreport, rfl⟩ := Prod.mk.inj h
    split at hreport
    · cases hreport
      exact heq
    · cases hreport
  · cases h

/-- An update fails before the restart, or in a restart that leaves no copy of the file. -/
theorem applyUpdate_eq_false (h : (applyUpdate d t params order).1 = false) :
    (applyUpdate d t params order).2 = (setEach d params order t false).2 ∨
      (setEach d params order t false).1.isSome ∧
        (applyUpdate d t params order).2 = (setEach d params order t false).2.startup := by
  unfold applyUpdate at h ⊢
  cases hparams : setParameters d t params order with
  | mk res u =>
    rw [hparams] at h
    cases res with
    | none => exact .inl (setParameters_eq_none hparams)
    | some restart =>
      cases restart with
      | false => cases h
      | true =>
        rw [setParameters_eq_some hparams]
        cases hbounce : bounceDatabase d u with
        | mk ok v =>
          simp only [hbounce, if_true] at h ⊢
          subst h
          rcases bounceDatabase_eq_false hbounce with rfl | rfl
          · exact .inl rfl
          · exact .inr ⟨rfl, rfl⟩

/-- What an update that fails does to a parameter that it writes to the file only. -/
theorem failed_update_entry (hr : Ranges order params) (hknown : Known t order)
    (h : (applyUpdate d t params order).1 = false) (hkey : params.lookup key = some value)
    (hp : t.entries key = some p) :
    ∃ q, (applyUpdate d t params order).2.entries key = some q ∧ q.backup = p.backup ∧
      (q ≠ p → fileOnly t key = true → Changeable t params key value p) := by
  have hmem : key ∈ order := (hr.mem key).mpr (Finmap.mem_of_lookup_eq_some hkey)
  have hspec : SetSpec params order t (setEach d params order t false) :=
    setEach_spec hr.nodup hknown
  have heach : ((setEach d params order t false).1 = none ∧
      (setEach d params order t false).2.entries key = some p) ∨
      isValidParameterValue value p.isString = true ∧
        (setEach d params order t false).2.entries key =
          some (p.set engine (fileOnly t key) key value) := by
    have := hspec.each key hmem
    rwa [isStringParam_of_entry hp, valueAt_of_lookup hkey, hp] at this
  rcases applyUpdate_eq_false h with heq | ⟨hsome, heq⟩
  · -- the parameter is as before, or it has the requested value in the file
    rw [heq]
    rcases heach with ⟨-, hsame⟩ | ⟨hvalid, hset⟩
    · exact ⟨p, hsame, rfl, fun hne => absurd rfl hne⟩
    · refine ⟨_, hset, rfl, ?_⟩
      intro hne hfile
      refine ⟨hvalid, .inl ?_⟩
      rintro rfl
      exact hne (by simp [Parameter.set, hfile])
  · -- every value was set, and the restart has made those in the file current
    rw [heq]
    have hall : ∀ k v, params.lookup k = some v →
        isValidParameterValue v (isStringParam t k) = true := by
      intro k v hk
      have hk' : k ∈ order := (hr.mem k).mpr (Finmap.mem_of_lookup_eq_some hk)
      rcases hspec.each k hk' with ⟨hnone, -⟩ | ⟨hvalid, -⟩
      · rw [hnone] at hsome
        cases hsome
      · rwa [valueAt_of_lookup hk] at hvalid
    rcases heach with ⟨hnone, -⟩ | ⟨hvalid, hset⟩
    · rw [hnone] at hsome
      cases hsome
    · refine ⟨_, startup_entry hset, rfl, ?_⟩
      intro hne hfile
      refine ⟨hvalid, ?_⟩
      by_contra hnot
      obtain ⟨hsame, hcur⟩ := not_or.mp hnot
      have hcur : engine.convert key value = p.value := by
        by_contra hc
        exact hcur ⟨hc, hall⟩
      obtain rfl := not_not.mp hsame
      apply hne
      simp [Parameter.set, hcur]

end Update

section Attempts

/-- An update and its rollback: how the daemon answers, and the orders of the loops. -/
structure Attempt where
  window : MaintenanceWindow
  currentTime : Time
  checking : Daemon
  updating : Daemon
  recovering : Daemon
  checkOrder : List String
  updateOrder : List String
  recoveryOrder : List String

namespace Attempt

/-- The check lets the map through and records values of dynamic parameters. -/
structure Records (a : Attempt) (t : Table engine) (params dynamic : StrMap) : Prop where
  checkOrder : Ranges a.checkOrder params
  updateOrder : Ranges a.updateOrder params
  recoveryOrder : Ranges a.recoveryOrder dynamic
  check : ∃ static,
    fetchCurrentParameterState a.checking t a.checkOrder a.window a.currentTime =
      some (static, dynamic)

def updated (a : Attempt) (t : Table engine) (params : StrMap) : Bool × Table engine :=
  applyUpdate a.updating t params a.updateOrder

def recovered (a : Attempt) (t : Table engine) (params dynamic : StrMap) : Bool × Table engine :=
  initiateRecovery a.recovering (a.updated t params).2 dynamic a.recoveryOrder

end Attempt

/-- Every recorded value can be set, and a rollback that finishes after a failed update has
restored every parameter of the map that the update had changed. -/
def RollsBack (t : Table engine) (params : StrMap) : Prop :=
  ∀ (a : Attempt) (dynamic : StrMap), a.Records t params dynamic →
    (∀ key value, dynamic.lookup key = some value →
      isValidParameterValue value (isStringParam t key) = true) ∧
    ((a.updated t params).1 = false → (a.recovered t params dynamic).1 = true →
      ∀ key ∈ params, ∀ p, t.entries (lowerName key) = some p →
        (a.updated t params).2.entries (lowerName key) ≠ some p →
          ((a.recovered t params dynamic).2.entries (lowerName key)).map (·.value) = some p.value)

/-- The map has a reserved parameter, so that it is never set; or every parameter that is not
static has a value that passes the check for its type, and the copy of the file has the current
value of each parameter that the update can change in the file only. -/
def Restorable (t : Table engine) (params : StrMap) : Prop :=
  (∃ key ∈ params, key ∈ reservedParameters) ∨
    (∀ key ∈ params, isStaticType t key = false →
      isValidParameterValue (currentValue t key) (isStringParam t key) = true) ∧
    ∀ key value p, params.lookup key = some value → t.entries key = some p →
      fileOnly t key = true → Changeable t params key value p →
        engine.convert key p.backup = p.value

variable {a : Attempt}

theorem Attempt.Records.lookup_dynamic (h : a.Records t params dynamic) (key : String) :
    dynamic.lookup key =
      if key ∈ params ∧ isStaticType t key = false then some (currentValue t key) else none := by
  obtain ⟨static, hcheck⟩ := h.check
  obtain ⟨-, -, -, -, heq⟩ := fetchCurrentParameterState_eq_some.mp hcheck
  obtain rfl : dynamic = (parameterState t a.checkOrder).2 := congrArg Prod.snd heq
  rw [parameterState_dynamic]
  simp only [h.checkOrder.mem]

theorem Attempt.Records.not_reserved (h : a.Records t params dynamic) :
    ∀ key ∈ params, key ∉ reservedParameters := by
  obtain ⟨static, hcheck⟩ := h.check
  obtain ⟨hreserved, -⟩ := fetchCurrentParameterState_eq_some.mp hcheck
  intro key hkey
  exact hreserved key ((h.checkOrder.mem key).mpr hkey)

theorem known_of_restorable (hvalid : ∀ key ∈ params, isStaticType t key = false →
      isValidParameterValue (currentValue t key) (isStringParam t key) = true)
    (hkey : key ∈ params) : (t.entries key).isSome := by
  cases hs : isStaticType t key with
  | true => exact known_of_static hs
  | false => exact known_of_valid (hvalid key hkey hs)

theorem mem_of_dynamic (h : a.Records t params dynamic) (hkey : key ∈ dynamic) :
    key ∈ params ∧ isStaticType t key = false := by
  obtain ⟨value, hv⟩ := Finmap.mem_iff.mp hkey
  rw [h.lookup_dynamic] at hv
  by_contra hnot
  rw [if_neg hnot] at hv
  cases hv

/-- The value of a parameter of the map after a rollback that finishes. -/
theorem Attempt.Records.recovered_value (h : a.Records t params dynamic)
    (hvalid : ∀ key ∈ params, isStaticType t key = false →
      isValidParameterValue (currentValue t key) (isStringParam t key) = true)
    (hkinds : SameKinds t (a.updated t params).2) {q : Parameter} (hkey : key ∈ params)
    (hp : t.entries key = some p) (hq : (a.updated t params).2.entries key = some q)
    (hbackup : q.backup = p.backup) (hdone : (a.recovered t params dynamic).1 = true) :
    ((a.recovered t params dynamic).2.entries key).map (·.value) =
      some (if fileOnly t key = true then engine.convert key p.backup else p.value) := by
  have hknown : Known (a.updated t params).2 a.recoveryOrder := by
    intro k hk
    rw [hkinds.known]
    have hk := mem_of_dynamic h ((h.recoveryOrder.mem k).mp hk)
    exact known_of_valid (hvalid k hk.1 hk.2)
  have hvalue := Parameters.recovered_value hdone h.recoveryOrder.nodup hknown hq
  rw [hkinds.fileOnly, hbackup] at hvalue
  refine hvalue.trans (congrArg some ?_)
  cases hf : fileOnly t key with
  | true => simp
  | false =>
    -- a parameter that is not written to the file only is recorded
    have hstatic : isStaticType t key = false := (Bool.or_eq_false_iff.mp hf).1
    have hlookup : dynamic.lookup key = some p.value := by
      rw [h.lookup_dynamic, if_pos ⟨hkey, hstatic⟩, currentValue_of_entry hp]
    have hmem : key ∈ a.recoveryOrder :=
      (h.recoveryOrder.mem key).mpr (Finmap.mem_of_lookup_eq_some hlookup)
    simp [hmem, valueAt_of_lookup hlookup, t.reported key p hp]

theorem sameKinds_updated (hr : Ranges order params) (hknown : Known t order)
    (h : (applyUpdate d t params order).1 = false) :
    SameKinds t (applyUpdate d t params order).2 := by
  have hkinds : SameKinds t (setEach d params order t false).2 :=
    (setEach_spec hr.nodup hknown).kinds
  rcases applyUpdate_eq_false h with heq | ⟨-, heq⟩
  · rw [heq]
    exact hkinds
  · rw [heq]
    exact hkinds.trans sameKinds_startup

theorem rollsBack_of_restorable (h : Restorable t params) : RollsBack t params := by
  intro a dynamic hrec
  rcases h with ⟨key, hkey, hreserved⟩ | ⟨hvalid, hcopy⟩
  · exact absurd hreserved (hrec.not_reserved key hkey)
  · constructor
    · intro key value hv
      obtain ⟨hkey, hstatic⟩ := mem_of_dynamic hrec (Finmap.mem_of_lookup_eq_some hv)
      rw [hrec.lookup_dynamic, if_pos ⟨hkey, hstatic⟩] at hv
      obtain rfl := Option.some.inj hv
      exact hvalid key hkey hstatic
    · intro hfail hdone key hkey p hp hchanged
      have hknown : Known t a.updateOrder :=
        fun k hk => known_of_restorable hvalid ((hrec.updateOrder.mem k).mp hk)
      rw [lowerName_of_known (known_of_restorable hvalid hkey)] at hp hchanged ⊢
      obtain ⟨value, hv⟩ := Finmap.mem_iff.mp hkey
      obtain ⟨q, hq, hbackup, hchangeable⟩ :=
        failed_update_entry hrec.updateOrder hknown hfail hv hp
      have hne : q ≠ p := fun heq => hchanged (heq ▸ hq)
      have hkinds := sameKinds_updated hrec.updateOrder hknown hfail
      rw [hrec.recovered_value hvalid hkinds hkey hp hq hbackup hdone]
      split
      · next hf => rw [hcopy key value p hv hp hf (hchangeable hne hf)]
      · rfl

/-- A daemon that answers everything. -/
def steady : Daemon where
  query _ := true
  alter _ _ := true
  report := true
  shutdown := true
  startup := true
  backupConfigFile := true
  recoverConfigFile := true

/-- An hour from the zero instant on. -/
def openWindow : MaintenanceWindow := some [⟨some 0, some hour⟩]

/-- An attempt whose update goes through `updating`, with everything else going well. -/
theorem exists_attempt (hreserved : ∀ key ∈ params, key ∉ reservedParameters) (updating : Daemon)
    (hr : Ranges order params) :
    ∃ (a : Attempt) (dynamic : StrMap), a.Records t params dynamic ∧ a.updating = updating ∧
      a.updateOrder = order ∧ a.recovering = steady := by
  obtain ⟨recoveryOrder, hrec⟩ := Ranges.exists (parameterState t order).2
  refine ⟨⟨openWindow, 0, steady, updating, steady, order, order, recoveryOrder⟩, _,
    ⟨hr, hr, hrec, (parameterState t order).1, ?_⟩, rfl, rfl, rfl⟩
  have hopen : inRange openWindow 0 = true := by decide
  apply fetchCurrentParameterState_eq_some.mpr
  refine ⟨?_, fun _ _ => rfl, fun _ => rfl, hopen, rfl⟩
  intro key hkey
  exact hreserved key ((hr.mem key).mp hkey)

/-- The daemon takes the statements for one parameter, and it does not stop the database. -/
def stoppingAfter (key : String) : Daemon :=
  { steady with alter := fun k _ => k = key, shutdown := false }

theorem applyUpdate_stoppingAfter (hrest : key ∉ keys) (hp : (t.entries key).isSome)
    (hfile : fileOnly t key = true)
    (hvalid : isValidParameterValue (valueAt params key) (isStringParam t key) = true) :
    applyUpdate (stoppingAfter key) t params (key :: keys) =
      (false, t.alterSystem true key (valueAt params key)) := by
  have hset : setParameter (stoppingAfter key) t key (valueAt params key) =
      some (true, t.alterSystem true key (valueAt params key)) := by
    apply setParameter_eq_some.mpr
    refine ⟨rfl, hvalid, by simp [stoppingAfter], by rwa [lowerName_of_known hp], by rw [hfile]⟩
  cases keys with
  | nil =>
    simp only [applyUpdate, setParameters, setEach, hset]
    rfl
  | cons k rest =>
    have hne : k ≠ key := fun heq => hrest (heq ▸ List.mem_cons_self)
    have hnone : ∀ u : Table engine, setParameter (stoppingAfter key) u k (valueAt params k) = none := by
      intro u
      simp [setParameter, stoppingAfter, hne]
    simp only [applyUpdate, setParameters, setEach, hset, hnone]

/-- The database restarts with everything set, but no copy of the file is made. -/
def uncopied : Daemon := { steady with backupConfigFile := false }

theorem applyUpdate_uncopied (hr : Ranges order params) (hknown : Known t order)
    (hvalid : ∀ k v, params.lookup k = some v →
      isValidParameterValue v (isStringParam t k) = true)
    (hv : params.lookup key = some value) (hp : t.entries key = some p)
    (hfile : fileOnly t key = true) :
    (applyUpdate uncopied t params order).1 = false ∧
      ((applyUpdate uncopied t params order).2.entries key).map (·.value) =
        some (engine.convert key value) := by
  have hkey : key ∈ order := (hr.mem key).mpr (Finmap.mem_of_lookup_eq_some hv)
  have hres : (setEach uncopied params order t false).1 = some true := by
    have hany : order.any (fileOnly t) = true := List.any_eq_true.mpr ⟨key, hkey, hfile⟩
    rw [setEach_succeeds hknown (fun _ => rfl) (fun _ _ _ => rfl), hany]
    · rfl
    · intro k hk
      obtain ⟨v, hv⟩ := Finmap.mem_iff.mp ((hr.mem k).mp hk)
      rw [valueAt_of_lookup hv]
      exact hvalid k v hv
  have hspec : SetSpec params order t (setEach uncopied params order t false) :=
    setEach_spec hr.nodup hknown
  cases heq : setEach uncopied params order t false with
  | mk res u =>
    rw [heq] at hres hspec
    simp only at hres
    subst hres
    have hupd : applyUpdate uncopied t params order = (false, u.startup) := by
      simp only [applyUpdate, setParameters, heq]
      rfl
    rcases hspec.each key hkey with ⟨hnone, -⟩ | ⟨-, hset⟩
    · cases hnone
    · rw [hp, valueAt_of_lookup hv] at hset
      rw [hupd, startup_entry hset]
      exact ⟨rfl, rfl⟩

section Converse

variable (h : RollsBack t params) (hreserved : ∀ key ∈ params, key ∉ reservedParameters)

include h hreserved

theorem valid_of_rollsBack (hkey : key ∈ params) (hstatic : isStaticType t key = false) :
    isValidParameterValue (currentValue t key) (isStringParam t key) = true := by
  obtain ⟨order, hr⟩ := Ranges.exists params
  obtain ⟨a, dynamic, hrec, -⟩ := exists_attempt hreserved steady hr (t := t)
  apply (h a dynamic hrec).1
  rw [hrec.lookup_dynamic, if_pos ⟨hkey, hstatic⟩]

/-- After any failed update that changes a parameter in the file, the rollback takes its value
from the copy of the file. -/
theorem copy_of_rollsBack {updating : Daemon} (hr : Ranges order params)
    (hv : params.lookup key = some value) (hp : t.entries key = some p)
    (hfile : fileOnly t key = true) (hfail : (applyUpdate updating t params order).1 = false)
    (hchanged : (applyUpdate updating t params order).2.entries key ≠ some p) :
    engine.convert key p.backup = p.value := by
  have hkey : key ∈ params := Finmap.mem_of_lookup_eq_some hv
  have hvalid : ∀ k ∈ params, isStaticType t k = false →
      isValidParameterValue (currentValue t k) (isStringParam t k) = true :=
    fun k hk hs => valid_of_rollsBack h hreserved hk hs
  have hknown : Known t order := fun k hk => known_of_restorable hvalid ((hr.mem k).mp hk)
  obtain ⟨a, dynamic, hrec, hupd, hord, hsteady⟩ := exists_attempt hreserved updating hr (t := t)
  have heq : a.updated t params = applyUpdate updating t params order := by
    rw [Attempt.updated, hupd, hord]
  obtain ⟨q, hq, hbackup, -⟩ := failed_update_entry hr hknown hfail hv hp
  have hkinds := sameKinds_updated hr hknown hfail
  rw [← heq] at hfail hchanged hq hkinds
  have hdone : (a.recovered t params dynamic).1 = true := by
    rw [Attempt.recovered, hsteady]
    apply initiateRecovery_succeeds (fun _ => rfl) (fun _ _ => rfl) ⟨rfl, rfl, rfl⟩ rfl
    · intro k hk
      rw [hkinds.known]
      have hk := mem_of_dynamic hrec ((hrec.recoveryOrder.mem k).mp hk)
      exact known_of_valid (hvalid k hk.1 hk.2)
    · intro k hk
      have hk := mem_of_dynamic hrec ((hrec.recoveryOrder.mem k).mp hk)
      have hlookup : dynamic.lookup k = some (currentValue t k) := by
        rw [hrec.lookup_dynamic, if_pos hk]
      rw [hkinds.isStringParam, valueAt_of_lookup hlookup]
      exact hvalid k hk.1 hk.2
  have hlow : lowerName key = key := t.lower key p hp
  have hback := (h a dynamic hrec).2 hfail hdone key hkey p (by rwa [hlow]) (by rwa [hlow])
  rw [hlow, hrec.recovered_value hvalid hkinds hkey hp hq hbackup hdone, if_pos hfile] at hback
  exact Option.some.inj hback

theorem restorable_of_rollsBack : Restorable t params := by
  right
  constructor
  · exact fun key hkey hstatic => valid_of_rollsBack h hreserved hkey hstatic
  · rintro key value p hv hp hfile ⟨hvalid, hchange⟩
    have hkey : key ∈ params := Finmap.mem_of_lookup_eq_some hv
    have hsome : (t.entries key).isSome := by simp [hp]
    rcases hchange with hne | ⟨hne, hall⟩
    · -- an update that stops after this parameter has changed the file
      obtain ⟨rest, hr⟩ := Ranges.exists_cons hkey
      have hvalid : isValidParameterValue (valueAt params key) (isStringParam t key) = true := by
        rwa [valueAt_of_lookup hv, isStringParam_of_entry hp]
      have hupd : applyUpdate (stoppingAfter key) t params (key :: rest) = _ :=
        applyUpdate_stoppingAfter (List.nodup_cons.mp hr.nodup).1 hsome hfile hvalid
      apply copy_of_rollsBack h hreserved hr hv hp hfile (congrArg Prod.fst hupd)
      rw [hupd]
      simp only [alterSystem_entries_self hsome, hp, valueAt_of_lookup hv, Option.map_some]
      intro heq
      exact hne (congrArg Parameter.spfile (Option.some.inj heq))
    · -- an update that ends after the restart has changed the current value
      obtain ⟨order, hr⟩ := Ranges.exists params
      have hknown : Known t order := by
        intro k hk
        exact known_of_restorable (fun k hk hs => valid_of_rollsBack h hreserved hk hs)
          ((hr.mem k).mp hk)
      obtain ⟨hfail, hvalue⟩ := applyUpdate_uncopied hr hknown hall hv hp hfile
      apply copy_of_rollsBack h hreserved hr hv hp hfile hfail
      intro heq
      rw [heq] at hvalue
      exact hne (Option.some.inj hvalue).symm

end Converse

/-- A rollback restores the parameters of a map, from any table, exactly when the map is
restorable. -/
theorem rollsBack_iff_restorable (t : Table engine) (params : StrMap) :
    RollsBack t params ↔ Restorable t params := by
  constructor
  · intro h
    by_cases hreserved : ∃ key ∈ params, key ∈ reservedParameters
    · exact .inl hreserved
    · apply restorable_of_rollsBack h
      intro key hkey hr
      exact hreserved ⟨key, hkey, hr⟩
  · exact rollsBack_of_restorable

end Attempts

section Sample

/-- A database that takes every value as it is. -/
def plain : Engine := ⟨fun _ value => value, fun _ _ => rfl⟩

/-- A database with one parameter. -/
def Table.single (name : String) (p : Parameter) (h : lowerName name = name) : Table plain where
  entries k := if k = name then some p else none
  lower k q hk := by
    split at hk
    · next heq => rw [heq, h]
    · cases hk
  reported _ _ _ := rfl

def cursorTable : Table plain :=
  .single "open_cursors" ⟨.immediate, false, "300", "300", "300"⟩ (by decide)

def misspelled : StrMap := (∅ : StrMap).insert "open_cursor" "400"

def misspelledAttempt : Attempt :=
  ⟨openWindow, 0, steady, steady, steady, ["open_cursor"], ["open_cursor"], ["open_cursor"]⟩

/-- An unknown parameter gets the empty value recorded, which no rollback can set: the database
refuses the update, and the rollback fails at its own record. -/
theorem misspelled_parameter_not_rolledBack :
    ¬ RollsBack cursorTable misspelled ∧
      (misspelledAttempt.updated cursorTable misspelled).1 = false ∧
      ∃ dynamic, misspelledAttempt.Records cursorTable misspelled dynamic ∧
        dynamic.lookup "open_cursor" = some "" ∧
        (misspelledAttempt.recovered cursorTable misspelled dynamic).1 = false := by
  refine ⟨?_, by decide, (∅ : StrMap).insert "open_cursor" "", ?_, by decide, by decide⟩
  · intro h
    have hreserved : ∀ key ∈ misspelled, key ∉ reservedParameters := by
      intro key hkey
      obtain rfl : key = "open_cursor" := by
        simpa [misspelled, Finmap.notMem_empty] using hkey
      decide
    have hvalid : isValidParameterValue (currentValue cursorTable "open_cursor")
        (isStringParam cursorTable "open_cursor") = true :=
      valid_of_rollsBack h hreserved (by decide) (by decide)
    revert hvalid
    decide
  · have hrange : ∀ value, Ranges ["open_cursor"] ((∅ : StrMap).insert "open_cursor" value) := by
      intro value
      exact ⟨List.nodup_singleton _, by simp [Finmap.notMem_empty]⟩
    exact ⟨hrange _, hrange _, hrange _, ∅, by decide⟩

/-- A parameter that was changed in the running database since its last start. -/
def sgaTable : Table plain :=
  .single "sga_target" ⟨.immediate, false, "1024", "1024", "512"⟩ (by decide)

example : ¬ RollsBack sgaTable ((∅ : StrMap).insert "sga_target" "2048") := by
  intro h
  have hreserved : ∀ key ∈ (∅ : StrMap).insert "sga_target" "2048", key ∉ reservedParameters := by
    intro key hkey
    obtain rfl : key = "sga_target" := by simpa [Finmap.notMem_empty] using hkey
    decide
  rcases restorable_of_rollsBack h hreserved with ⟨key, hkey, hr⟩ | ⟨-, hcopy⟩
  · exact hreserved key hkey hr
  · have hback := hcopy "sga_target" "2048" _ (by decide) rfl (by decide) ⟨by decide, .inl (by decide)⟩
    revert hback
    decide

end Sample

end ElCarro.Instance.Parameters
