import ElCarro.Lib.SlashPath
import ElCarro.Instance.ParameterRollback

/-! # Parameters of a new database

A request to create a database brings a list of parameters. They are merged with those
that the controller sets itself, which win over entries of the very same name, and go to
`dbca` as one text: assignments with commas between them, whose names the database reads
in any case of the letters.
-/

namespace ElCarro.Daemon

open K8s Api
open Instance.Parameters (lowerName reservedParameters Ranges)

section Merge

/-- The parameters of `GetDefaultInitParams`. -/
def internalParameters : List String :=
  ["log_archive_dest_1", "enable_pluggable_database", "common_user_prefix", "control_files"]

/-- A name, in lower case, that users may not set. -/
def Protected (name : String) : Prop := name ∈ internalParameters ∨ name ∈ reservedParameters

instance (name : String) : Decidable (Protected name) := inferInstanceAs (Decidable (_ ∨ _))

def controlFileLoc (dbName : String) : String :=
  String.ofList (SlashPath.join ("/u02/app/oracle/oradata/" ++ dbName).toList "control01.ctl".toList)

def getDefaultInitParams (dbName : String) : StrMap :=
  ((((∅ : StrMap).insert "log_archive_dest_1" "'LOCATION=USE_DB_RECOVERY_FILE_DEST'").insert
    "enable_pluggable_database" "TRUE").insert
    "common_user_prefix" "'gcsql$'").insert
    "control_files" ("'" ++ controlFileLoc dbName ++ "'")

/-- `MapToSlice`, which visits the keys in any order. -/
def mapToSlice (order : List String) (kv : StrMap) : List String :=
  order.map fun key => key ++ "=" ++ valueAt kv key

/-- One round of the first loop of `MergeInitParams`. -/
def addUserParam (merged : StrMap) (userParam : String) : Except String StrMap :=
  match userParam.toList.splitOn '=' with
  | [key, value] => .ok (merged.insert (String.ofList key) (String.ofList value))
  | _ => .error ("MergeInitParam: user param " ++ userParam ++ " is not separated by =")

/-- What the user wants, by the names as they are spelled. -/
def addUserParams (userParams : List String) : Except String StrMap :=
  userParams.foldlM addUserParam ∅

/-- `MergeInitParams`. The default wins where both maps have the key. -/
def mergeInitParams (defaultParams : StrMap) (userParams : List String) : Except String StrMap :=
  (addUserParams userParams).map fun merged => defaultParams ∪ merged

end Merge

section Create

structure CreateCDBRequest where
  databaseName : String
  characterSet : String
  memoryPercent : Int
  /-- `nil`, or a list. -/
  additionalParams : Option (List String)
  dbDomain : String
  deriving DecidableEq

/-- `strings.ToUpper` as far as it leads to ASCII, where two letters come from outside. -/
def toUpper (c : Char) : Char :=
  if c = 'ı' then 'I' else if c = 'ſ' then 'S' else c.toUpper

def foundDBDomain (params : List String) : Bool :=
  params.any fun param => "DB_DOMAIN=".toList <:+: param.toList.map toUpper

def initParamsArr (req : CreateCDBRequest) (params : List String) : List String :=
  if ¬ foundDBDomain params ∧ req.dbDomain ≠ "" then params ++ ["DB_DOMAIN=" ++ req.dbDomain]
  else params

/-- The map that the text is made of. -/
def initParamsMap (req : CreateCDBRequest) : Except String StrMap :=
  match req.additionalParams with
  | none => .ok (getDefaultInitParams req.databaseName)
  | some params =>
    match mergeInitParams (getDefaultInitParams req.databaseName) (initParamsArr req params) with
    | .error err =>
      .error ("error while merging user defined init params with default values, " ++ err)
    | .ok initParamsMap => .ok initParamsMap

def initParams (req : CreateCDBRequest) (order : List String) : Except String String :=
  match initParamsMap req with
  | .error err => .error err
  | .ok kv =>
    let text := ",".intercalate (mapToSlice order kv)
    .ok (if req.additionalParams = none ∧ req.dbDomain ≠ "" then
      text ++ "," ++ ("DB_DOMAIN=" ++ req.dbDomain) else text)

/-- The arguments of `dbca`. -/
def dbcaParams (req : CreateCDBRequest) (initParams password : String) : List String :=
  ["-silent",
    "-createDatabase",
    "-templateName", "General_Purpose.dbc",
    "-gdbName", req.databaseName,
    "-responseFile", "NO_VALUE",
    "-createAsContainerDatabase", "true",
    "-sid", req.databaseName,
    "-characterSet", if req.characterSet = "" then "AL32UTF8" else req.characterSet,
    "-memoryPercentage", toString (if req.memoryPercent = 0 then 25 else req.memoryPercent),
    "-emConfiguration", "NONE",
    "-datafileDestination", "/u02/app/oracle/oradata",
    "-storageType", "FS",
    "-initParams", initParams,
    "-databaseType", "MULTIPURPOSE",
    "-recoveryAreaDestination", "/u03/app/oracle/fast_recovery_area",
    "-sysPassword", password,
    "-systemPassword", password]

/-- `createCDB` up to the call of `dbca`. -/
def createCDB (req : CreateCDBRequest) (password : Option String) (order : List String) :
    Except String (List String) :=
  match password with
  | none => .error "error generating temporary password"
  | some password =>
    if req.databaseName = "" then .error "dbdaemon/CreateCDB: DBname is empty"
    else
      match initParams req order with
      | .error err => .error err
      | .ok initParams => .ok (dbcaParams req initParams password)

end Create

section Assignments

/-- The parameter that one part of the text assigns, by its name in lower case. -/
def assignment (part : List Char) : Option (String × String) :=
  match part.dropWhile (· ≠ '=') with
  | [] => none
  | _ :: value => some (lowerName (String.ofList (part.takeWhile (· ≠ '='))), String.ofList value)

/-- Everything that the text assigns. -/
def assignments (text : String) : List (String × String) :=
  (text.toList.splitOn ',').filterMap assignment

theorem assignments_append (text more : String) :
    assignments (text ++ "," ++ more) = assignments text ++ assignments more := by
  simp only [assignments, String.toList_append]
  have hcomma : ",".toList = [','] := rfl
  rw [hcomma, List.append_assoc, List.singleton_append, List.splitOn_append_cons_self,
    List.filterMap_append]

/-- A text assigns what its items assign. -/
theorem assignments_intercalate (items : List String) :
    assignments (",".intercalate items) = items.flatMap assignments := by
  induction items with
  | nil => rfl
  | cons item rest ih =>
    cases rest with
    | nil => simp
    | cons next rest =>
      rw [String.intercalate_cons_of_ne_nil (by simp), assignments_append, ih]
      rfl

/-- An assignment of the controller's own. -/
def Own (dbName : String) (a : String × String) : Prop :=
  ∃ key ∈ internalParameters, a ∈ assignments (key ++ "=" ++ valueAt (getDefaultInitParams dbName) key)

/-- The item assigns no protected parameter, unless as the controller does itself. -/
def Spares (dbName item : String) : Prop :=
  ∀ a ∈ assignments item, Protected a.1 → Own dbName a

/-- What the user has put into the text: the last value for each spelling of a name, but for the
internal parameters as the defaults spell them. -/
def UserItem (req : CreateCDBRequest) (item : String) : Prop :=
  match req.additionalParams with
  | none => req.dbDomain ≠ "" ∧ item = "DB_DOMAIN=" ++ req.dbDomain
  | some params => ∃ merged, addUserParams (initParamsArr req params) = .ok merged ∧
      ∃ key ∈ merged, key ∉ internalParameters ∧ item = key ++ "=" ++ valueAt merged key

/-- Whatever the order of the map, `dbca` is told to set protected parameters as the controller
does. -/
def SparesAtCreation (req : CreateCDBRequest) : Prop :=
  ∀ password order text, (∀ kv, initParamsMap req = .ok kv → Ranges order kv) →
    createCDB req (some password) order = .ok (dbcaParams req text password) →
      Spares req.databaseName text

end Assignments

section Creation

variable {req : CreateCDBRequest} {order : List String} {text password : String}

theorem mem_getDefaultInitParams {dbName key : String} :
    key ∈ getDefaultInitParams dbName ↔ key ∈ internalParameters := by
  simp only [getDefaultInitParams, Finmap.mem_insert, Finmap.notMem_empty, or_false, internalParameters,
    List.mem_cons, List.not_mem_nil]
  tauto

theorem createCDB_eq_ok (hname : req.databaseName ≠ "") :
    createCDB req (some password) order = .ok (dbcaParams req text password) ↔
      initParams req order = .ok text := by
  simp only [createCDB, if_neg hname]
  cases initParams req order with
  | error err => simp
  | ok text' => simp [dbcaParams]

/-- A text made of a map assigns what its entries assign. -/
theorem mem_assignments_mapToSlice {kv : StrMap} {a : String × String} (hkv : Ranges order kv) :
    a ∈ assignments (",".intercalate (mapToSlice order kv)) ↔
      ∃ key ∈ kv, a ∈ assignments (key ++ "=" ++ valueAt kv key) := by
  rw [assignments_intercalate, mapToSlice, List.mem_flatMap]
  constructor
  · rintro ⟨item, hitem, ha⟩
    obtain ⟨key, hkey, rfl⟩ := List.mem_map.mp hitem
    exact ⟨key, (hkv.mem key).mp hkey, ha⟩
  · rintro ⟨key, hkey, ha⟩
    exact ⟨_, List.mem_map.mpr ⟨key, (hkv.mem key).mpr hkey, rfl⟩, ha⟩

theorem own_iff {dbName : String} {a : String × String} :
    Own dbName a ↔ ∃ key ∈ getDefaultInitParams dbName,
      a ∈ assignments (key ++ "=" ++ valueAt (getDefaultInitParams dbName) key) := by
  simp only [Own, mem_getDefaultInitParams]

/-- In the merged map the user's entries are those of other names. -/
theorem merged_entry_iff {dbName : String} {merged : StrMap} {a : String × String} :
    (∃ key ∈ getDefaultInitParams dbName ∪ merged,
      a ∈ assignments (key ++ "=" ++ valueAt (getDefaultInitParams dbName ∪ merged) key)) ↔
      Own dbName a ∨ ∃ key ∈ merged, key ∉ internalParameters ∧
        a ∈ assignments (key ++ "=" ++ valueAt merged key) := by
  rw [own_iff]
  have hleft : ∀ {key}, key ∈ getDefaultInitParams dbName →
      valueAt (getDefaultInitParams dbName ∪ merged) key = valueAt (getDefaultInitParams dbName) key := by
    intro key hkey
    rw [valueAt, Finmap.lookup_union_left hkey]
    rfl
  have hright : ∀ {key}, key ∉ getDefaultInitParams dbName →
      valueAt (getDefaultInitParams dbName ∪ merged) key = valueAt merged key := by
    intro key hkey
    rw [valueAt, Finmap.lookup_union_right hkey]
    rfl
  constructor
  · rintro ⟨key, hkey, ha⟩
    by_cases hdefault : key ∈ getDefaultInitParams dbName
    · rw [hleft hdefault] at ha
      exact .inl ⟨key, hdefault, ha⟩
    · rw [hright hdefault] at ha
      rw [mem_getDefaultInitParams] at hdefault
      have hmem := (Finmap.mem_union.mp hkey).resolve_left (mt mem_getDefaultInitParams.mp hdefault)
      exact .inr ⟨key, hmem, hdefault, ha⟩
  · rintro (⟨key, hkey, ha⟩ | ⟨key, hkey, hother, ha⟩)
    · refine ⟨key, Finmap.mem_union.mpr (.inl hkey), ?_⟩
      rwa [hleft hkey]
    · refine ⟨key, Finmap.mem_union.mpr (.inr hkey), ?_⟩
      rwa [hright (mt mem_getDefaultInitParams.mp hother)]

/-- What the text assigns comes from the controller or from the user. -/
theorem mem_assignments_initParams {a : String × String}
    (hrange : ∀ kv, initParamsMap req = .ok kv → Ranges order kv)
    (htext : initParams req order = .ok text) :
    a ∈ assignments text ↔
      Own req.databaseName a ∨ ∃ item, UserItem req item ∧ a ∈ assignments item := by
  unfold initParams at htext
  cases hkv : initParamsMap req with
  | error err =>
    rw [hkv] at htext
    cases htext
  | ok kv =>
    have hitems := @mem_assignments_mapToSlice order kv a (hrange kv hkv)
    simp only [hkv, Except.ok.injEq] at htext
    subst htext
    unfold initParamsMap at hkv
    unfold UserItem
    cases hparams : req.additionalParams with
    | none =>
      simp only [hparams, Except.ok.injEq] at hkv
      subst hkv
      rw [← own_iff] at hitems
      by_cases hdomain : req.dbDomain = ""
      · simp [hdomain, hitems]
      · simp only [hdomain, ne_eq, not_false_eq_true, and_self, if_true, assignments_append,
          List.mem_append, hitems, true_and]
        constructor
        · exact fun h => h.imp_right fun h => ⟨_, rfl, h⟩
        · rintro (h | ⟨_, rfl, h⟩)
          · exact .inl h
          · exact .inr h
    | some params =>
      simp only [hparams, mergeInitParams] at hkv
      cases hmerged : addUserParams (initParamsArr req params) with
      | error err =>
        rw [hmerged] at hkv
        cases hkv
      | ok merged =>
        rw [hmerged] at hkv
        obtain rfl := Except.ok.inj hkv
        simp only [reduceCtorEq, false_and, if_false, hitems, merged_entry_iff, hmerged,
          Except.ok.injEq]
        constructor
        · exact fun h => h.imp_right fun ⟨key, hkey, hother, ha⟩ =>
            ⟨_, ⟨merged, rfl, key, hkey, hother, rfl⟩, ha⟩
        · rintro (h | ⟨_, ⟨_, rfl, key, hkey, hother, rfl⟩, ha⟩)
          · exact .inl h
          · exact .inr ⟨key, hkey, hother, ha⟩

/-- A text can be made unless the list is not one of assignments. -/
theorem exists_initParams {item : String} (h : UserItem req item) :
    ∃ order text, (∀ kv, initParamsMap req = .ok kv → Ranges order kv) ∧
      initParams req order = .ok text := by
  have hmap : ∃ kv, initParamsMap req = .ok kv := by
    unfold UserItem at h
    unfold initParamsMap mergeInitParams
    cases hparams : req.additionalParams with
    | none => exact ⟨_, rfl⟩
    | some params =>
      simp only [hparams] at h
      obtain ⟨merged, hmerged, -⟩ := h
      dsimp only
      rw [hmerged]
      exact ⟨_, rfl⟩
  obtain ⟨kv, hkv⟩ := hmap
  obtain ⟨order, horder⟩ := Ranges.exists kv
  refine ⟨order, _, ?_, by unfold initParams; rw [hkv]⟩
  intro kv' hkv'
  obtain rfl : kv = kv' := Except.ok.inj (hkv.symm.trans hkv')
  exact horder

/-- Exactly the requests whose own items spare the protected parameters create databases that
have them as the controller sets them. -/
theorem sparesAtCreation_iff :
    SparesAtCreation req ↔
      req.databaseName = "" ∨ ∀ item, UserItem req item → Spares req.databaseName item := by
  by_cases hname : req.databaseName = ""
  · simp only [hname, true_or, iff_true]
    intro password order text _ hcreate
    simp [createCDB, hname] at hcreate
  · simp only [hname, false_or]
    constructor
    · intro h item hitem a ha
      obtain ⟨order, text, hrange, htext⟩ := exists_initParams hitem
      apply h "" order text hrange ((createCDB_eq_ok hname).mpr htext)
      exact (mem_assignments_initParams hrange htext).mpr (.inr ⟨item, hitem, ha⟩)
    · intro h password order text hrange hcreate a ha hprotected
      rcases (mem_assignments_initParams hrange ((createCDB_eq_ok hname).mp hcreate)).mp ha with
        hown | ⟨item, hitem, ha⟩
      · exact hown
      · exact h item hitem a ha hprotected

end Creation

end ElCarro.Daemon
