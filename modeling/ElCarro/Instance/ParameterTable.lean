import ElCarro.Api.Types

/-! # Parameters of the database

A parameter has a current value, a value in the file that the next start reads,
and one in the copy of that file that the last start left behind. An update sets
the parameters of a map one after the other; a rollback puts the copy of the file
in place, restarts the database and sets what was recorded before the update.
-/

namespace ElCarro.Instance.Parameters

open GoTime K8s Api

section Windows

structure TimeRange where
  start : Option Time
  duration : Option Duration
  deriving DecidableEq, Repr

/-- `nil`, or the time ranges of the window. -/
abbrev MaintenanceWindow := Option (List TimeRange)

def timeRangeIsValid (tr : TimeRange) : Bool := tr.start.isSome && tr.duration.isSome

/-- Inclusive at the start and exclusive at the end. -/
def timeRangeInRange (tr : TimeRange) (t : Time) : Bool :=
  match tr.start, tr.duration with
  | some start, some duration => rfc3339Copy start ≤ t ∧ t < rfc3339Copy start + duration
  | _, _ => false

def hasValidTimeRanges (mw : MaintenanceWindow) : Bool :=
  match mw with
  | none => false
  | some timeRanges => ¬ timeRanges = [] ∧ timeRanges.all timeRangeIsValid

def inRange (mw : MaintenanceWindow) (t : Time) : Bool :=
  (mw.getD []).any fun tr => timeRangeInRange tr t

end Windows

section Values

def reservedParameters : List String :=
  ["audit_file_dest", "audit_trail", "compatible", "control_files", "db_block_size",
    "db_recovery_file_dest", "diagnostic_dest", "dispatchers", "enable_pluggable_database",
    "filesystemio_options", "local_listener", "remote_login_passwordfile", "undo_tablespace",
    "log_archive_dest_1", "log_archive_dest_state_1", "log_archive_format",
    "standby_file_management"]

def overrideParamTypeStatic : List String := ["sga_target"]

/-- The pattern `^[A-Za-z0-9-]+$`. -/
def parameterNonStringMatcher (value : String) : Bool :=
  ¬ value.toList = [] ∧ value.toList.all fun c => c.isAlphanum || c = '-'

def isValidParameterValue (value : String) (isTypeString : Bool) : Bool :=
  isTypeString || parameterNonStringMatcher value

/-- A name as the engine reads it in a statement. -/
def lowerName (name : String) : String := String.ofList (name.toList.map Char.toLower)

end Values

/-- `issys_modifiable`; the engine's word for a static parameter is `FALSE`. -/
inductive Modifiable where
  | immediate | deferred | static
  deriving DecidableEq, Repr

structure Parameter where
  modifiable : Modifiable
  /-- Whether the data type is 2, that of a string. -/
  isString : Bool
  /-- What a new session sees. -/
  value : String
  /-- What the parameter file has for the next start. -/
  spfile : String
  /-- What `pfile.lkws` has, the last known working state of that file. -/
  backup : String
  deriving DecidableEq, Repr

/-- What the database makes of a value, say upper case or a number of bytes. -/
structure Engine where
  convert : String → String → String
  convert_convert : ∀ name value, convert name (convert name value) = convert name value

/-- The parameters that the database has, by their names in `v$parameter`. -/
structure Table (engine : Engine) where
  entries : String → Option Parameter
  lower : ∀ name p, entries name = some p → lowerName name = name
  reported : ∀ name p, entries name = some p → engine.convert name p.value = p.value

variable {engine : Engine}

section Statements

/-- Change every parameter, to a value that the engine can report. -/
def Table.map (t : Table engine) (f : String → Parameter → Parameter)
    (hf : ∀ name p, engine.convert name p.value = p.value →
      engine.convert name (f name p).value = (f name p).value) : Table engine where
  entries name := (t.entries name).map (f name)
  lower name p h := by
    obtain ⟨q, hq, -⟩ := Option.map_eq_some_iff.mp h
    exact t.lower name q hq
  reported name p h := by
    obtain ⟨q, hq, rfl⟩ := Option.map_eq_some_iff.mp h
    exact hf name q (t.reported name q hq)

/-- `alter system set`, in the running database and in the file or in the file only. -/
def Parameter.set (engine : Engine) (fileOnly : Bool) (name value : String) (p : Parameter) :
    Parameter :=
  { p with
    spfile := value
    value := if fileOnly then p.value else engine.convert name value }

def Table.alterSystem (t : Table engine) (fileOnly : Bool) (key value : String) : Table engine :=
  t.map (fun name p => if name = lowerName key then p.set engine fileOnly name value else p) (by
    intro name p hp
    split
    · cases fileOnly
      · exact engine.convert_convert name value
      · exact hp
    · exact hp)

/-- A start of the database reads the file. -/
def Table.startup (t : Table engine) : Table engine :=
  t.map (fun name p => { p with value := engine.convert name p.spfile })
    fun name p _ => engine.convert_convert name p.spfile

def Table.backupConfigFile (t : Table engine) : Table engine :=
  t.map (fun _ p => { p with backup := p.spfile }) fun _ _ h => h

def Table.recoverConfigFile (t : Table engine) : Table engine :=
  t.map (fun _ p => { p with spfile := p.backup }) fun _ _ h => h

end Statements

/-- How the database daemon answers within one reconcile. -/
structure Daemon where
  query : String → Bool
  /-- Whether the engine takes a statement that sets a parameter it knows. -/
  alter : String → String → Bool
  /-- The last query of an update, for all of its parameters. -/
  report : Bool
  shutdown : Bool
  startup : Bool
  backupConfigFile : Bool
  recoverConfigFile : Bool

section Queries

variable (t : Table engine)

/-- No row is an empty type, which is not the one of a static parameter. -/
def isStaticType (key : String) : Bool := (t.entries key).any fun p => p.modifiable = .static

def isStringParam (key : String) : Bool := (t.entries key).any (·.isString)

/-- No row is an empty value. -/
def currentValue (key : String) : String := ((t.entries key).map (·.value)).getD ""

/-- The parameter is written to the file only. -/
def fileOnly (key : String) : Bool := isStaticType t key || key ∈ overrideParamTypeStatic

end Queries

section Calls

variable (d : Daemon)

/-- `SetParameter`: whether a restart is needed, and the table afterwards. -/
def setParameter (t : Table engine) (key value : String) : Option (Bool × Table engine) :=
  if ¬ d.query key then none
  else if ¬ isValidParameterValue value (isStringParam t key) then none
  else if d.alter key value ∧ (t.entries (lowerName key)).isSome then
    some (fileOnly t key, t.alterSystem (fileOnly t key) key value)
  else none

/-- The loop over a map: the first error ends it, and what was set so far stays. -/
def setEach (params : StrMap) : List String → Table engine → Bool → Option Bool × Table engine
  | [], t, restart => (some restart, t)
  | key :: rest, t, restart =>
    match setParameter d t key (valueAt params key) with
    | none => (none, t)
    | some (isStatic, t) => setEach params rest t (restart || isStatic)

def setParameters (t : Table engine) (params : StrMap) (order : List String) :
    Option Bool × Table engine :=
  match setEach d params order t false with
  | (some restart, t) => (if d.report then some restart else none, t)
  | (none, t) => (none, t)

/-- A start that leaves no copy of the file is an error, but the database runs. -/
def bounceDatabase (t : Table engine) : Bool × Table engine :=
  if ¬ d.shutdown ∨ ¬ d.startup then (false, t)
  else if ¬ d.backupConfigFile then (false, t.startup)
  else (true, t.startup.backupConfigFile)

def initiateRecovery (t : Table engine) (dynamicParams : StrMap) (order : List String) :
    Bool × Table engine :=
  if ¬ d.recoverConfigFile then (false, t)
  else
    match bounceDatabase d t.recoverConfigFile with
    | (false, t) => (false, t)
    | (true, t) =>
      match setEach d dynamicParams order t false with
      | (restart, t) => (restart.isSome, t)

/-- Sort the current values into those of static and of dynamic parameters. -/
def parameterState (t : Table engine) : List String → StrMap × StrMap
  | [] => (∅, ∅)
  | key :: rest =>
    let (static, dynamic) := parameterState t rest
    if isStaticType t key then (static.insert key (currentValue t key), dynamic)
    else (static, dynamic.insert key (currentValue t key))

/-- The sanity check of a requested map, at the time of its own. -/
def fetchCurrentParameterState (t : Table engine) (order : List String) (mw : MaintenanceWindow)
    (currentTime : Time) : Option (StrMap × StrMap) :=
  if order.any (· ∈ reservedParameters) then none
  else if ¬ order.all d.query then none
  else if order.any (isStaticType t) ∧ ¬ hasValidTimeRanges mw then none
  else if ¬ inRange mw currentTime then none
  else some (parameterState t order)

/-- What the machine does to the database while an update is in progress. -/
def applyUpdate (t : Table engine) (params : StrMap) (order : List String) :
    Bool × Table engine :=
  match setParameters d t params order with
  | (none, t) => (false, t)
  | (some restart, t) => if restart then bounceDatabase d t else (true, t)

end Calls

section Kinds

variable {t t' t'' : Table engine}

/-- What a parameter is does not change, whatever its values are. -/
def SameKinds (t t' : Table engine) : Prop :=
  ∀ name, (t'.entries name).map (fun p => (p.modifiable, p.isString)) =
    (t.entries name).map fun p => (p.modifiable, p.isString)

theorem SameKinds.refl : SameKinds t t := fun _ => rfl

theorem SameKinds.trans (h : SameKinds t t') (h' : SameKinds t' t'') : SameKinds t t'' :=
  fun name => (h' name).trans (h name)

theorem sameKinds_map {f : String → Parameter → Parameter}
    {hf : ∀ name p, engine.convert name p.value = p.value →
      engine.convert name (f name p).value = (f name p).value}
    (h : ∀ name p, (f name p).modifiable = p.modifiable ∧ (f name p).isString = p.isString) :
    SameKinds t (t.map f hf) := by
  intro name
  cases hp : t.entries name with
  | none => simp [Table.map, hp]
  | some p => simp [Table.map, hp, h name p]

theorem sameKinds_alterSystem {only : Bool} {key value : String} :
    SameKinds t (t.alterSystem only key value) := by
  apply sameKinds_map
  intro name p
  split <;> exact ⟨rfl, rfl⟩

theorem SameKinds.isStaticType (h : SameKinds t t') (key : String) :
    isStaticType t' key = isStaticType t key := by
  have hk := congrArg (Option.any fun kind => decide (kind.1 = Modifiable.static)) (h key)
  simpa [Parameters.isStaticType, Option.any_map, Function.comp_def] using hk

theorem SameKinds.isStringParam (h : SameKinds t t') (key : String) :
    isStringParam t' key = isStringParam t key := by
  have hk := congrArg (Option.any fun kind => kind.2) (h key)
  simpa [Parameters.isStringParam, Option.any_map, Function.comp_def] using hk

theorem SameKinds.fileOnly (h : SameKinds t t') (key : String) :
    fileOnly t' key = fileOnly t key := by
  simp only [Parameters.fileOnly, h.isStaticType]

theorem SameKinds.known (h : SameKinds t t') (key : String) :
    (t'.entries key).isSome = (t.entries key).isSome := by
  have hk := congrArg Option.isSome (h key)
  simpa only [Option.isSome_map] using hk

end Kinds

section Setting

variable {d : Daemon} {params : StrMap} {t t' : Table engine} {keys : List String} {restart : Bool}

theorem setParameter_eq_some {key value : String} {res : Bool × Table engine} :
    setParameter d t key value = some res ↔
      d.query key ∧ isValidParameterValue value (isStringParam t key) ∧ d.alter key value ∧
        (t.entries (lowerName key)).isSome ∧
        res = (fileOnly t key, t.alterSystem (fileOnly t key) key value) := by
  unfold setParameter
  split
  · simp_all
  · split
    · simp_all
    · split
      · constructor
        · intro h
          simp_all
        · rintro ⟨-, -, -, -, rfl⟩
          rfl
      · simp_all

/-- Every key names a parameter in the spelling of the database. -/
def Known (t : Table engine) (keys : List String) : Prop := ∀ key ∈ keys, (t.entries key).isSome

theorem lowerName_of_known {key : String} (h : (t.entries key).isSome) : lowerName key = key := by
  obtain ⟨p, hp⟩ := Option.isSome_iff_exists.mp h
  exact t.lower key p hp

theorem alterSystem_entries_self {only : Bool} {key value : String} (h : (t.entries key).isSome) :
    (t.alterSystem only key value).entries key =
      (t.entries key).map (·.set engine only key value) := by
  simp [Table.alterSystem, Table.map, lowerName_of_known h]

theorem alterSystem_entries_ne {only : Bool} {key value name : String}
    (h : (t.entries key).isSome) (hne : name ≠ key) :
    (t.alterSystem only key value).entries name = t.entries name := by
  simp [Table.alterSystem, Table.map, lowerName_of_known h, hne]

/-- What the loop over a map of known parameters leaves behind. -/
structure SetSpec (params : StrMap) (keys : List String) (t : Table engine)
    (res : Option Bool × Table engine) : Prop where
  kinds : SameKinds t res.2
  others : ∀ name, name ∉ keys → res.2.entries name = t.entries name
  each : ∀ key ∈ keys, (res.1 = none ∧ res.2.entries key = t.entries key) ∨
    isValidParameterValue (valueAt params key) (isStringParam t key) ∧
      res.2.entries key =
        (t.entries key).map (·.set engine (fileOnly t key) key (valueAt params key))

theorem setEach_spec (hnodup : keys.Nodup) (hknown : Known t keys) :
    SetSpec params keys t (setEach d params keys t restart) := by
  induction keys generalizing t restart with
  | nil => exact ⟨.refl, fun _ _ => rfl, by simp⟩
  | cons key rest ih =>
    have hkey : (t.entries key).isSome := hknown key List.mem_cons_self
    have hrest : Known t rest := fun k hk => hknown k (List.mem_cons_of_mem key hk)
    obtain ⟨hfresh, hnodup⟩ := List.nodup_cons.mp hnodup
    simp only [setEach]
    split
    · exact ⟨.refl, fun _ _ => rfl, fun _ _ => .inl ⟨rfl, rfl⟩⟩
    · next isStatic u hset =>
      obtain ⟨-, hvalid, -, -, heq⟩ := setParameter_eq_some.mp hset
      obtain ⟨-, rfl⟩ := Prod.mk.inj heq
      have hkinds : SameKinds t (t.alterSystem (fileOnly t key) key (valueAt params key)) :=
        sameKinds_alterSystem
      have hknown' : Known (t.alterSystem (fileOnly t key) key (valueAt params key)) rest := by
        intro k hk
        rw [hkinds.known]
        exact hrest k hk
      have hspec : SetSpec params rest _ (setEach d params rest _ (restart || isStatic)) :=
        ih hnodup hknown'
      refine ⟨hkinds.trans hspec.kinds, ?_, ?_⟩
      · intro name hname
        obtain ⟨hne, hname⟩ := not_or.mp (mt List.mem_cons.mpr hname)
        rw [hspec.others name hname, alterSystem_entries_ne hkey hne]
      · intro k hk
        rcases List.mem_cons.mp hk with rfl | hk
        · right
          constructor
          · exact hvalid
          · rw [hspec.others k hfresh, alterSystem_entries_self hkey]
        · have hne : k ≠ key := fun h => hfresh (h ▸ hk)
          have heach := hspec.each k hk
          rw [alterSystem_entries_ne hkey hne, hkinds.isStringParam, hkinds.fileOnly] at heach
          exact heach

/-- Values that pass the check can all be set when the daemon takes every statement. -/
theorem setEach_succeeds (hknown : Known t keys) (hquery : ∀ key, d.query key)
    (halter : ∀ key ∈ keys, ∀ value, d.alter key value)
    (hvalid : ∀ key ∈ keys, isValidParameterValue (valueAt params key) (isStringParam t key)) :
    (setEach d params keys t restart).1 = some (restart || keys.any (fileOnly t)) := by
  induction keys generalizing t restart with
  | nil => simp [setEach]
  | cons key rest ih =>
    have hkey : (t.entries key).isSome := hknown key List.mem_cons_self
    have hset := (setParameter_eq_some (d := d)).mpr ⟨hquery key, hvalid key List.mem_cons_self,
      halter key List.mem_cons_self _, by rwa [lowerName_of_known hkey], rfl⟩
    have hkinds : SameKinds t (t.alterSystem (fileOnly t key) key (valueAt params key)) :=
      sameKinds_alterSystem
    simp only [setEach, hset]
    rw [ih]
    · simp only [List.any_cons, Bool.or_assoc]
      rw [show fileOnly _ = fileOnly t from funext hkinds.fileOnly]
    · intro k hk
      rw [hkinds.known]
      exact hknown k (List.mem_cons_of_mem key hk)
    · intro k hk
      exact halter k (List.mem_cons_of_mem key hk)
    · intro k hk
      rw [hkinds.isStringParam]
      exact hvalid k (List.mem_cons_of_mem key hk)

end Setting

end ElCarro.Instance.Parameters
