import ElCarro.Lib.SlashPath
import ElCarro.Lro.Job
import ElCarro.Standby.Verify

/-! # Parameters that the standby tasks read

The tasks that create and bootstrap a standby, and the one that checks where the broker
keeps its configuration, ask for the values of several parameters in one query. The rows
have no names and the query no order, and each value goes to a field by its position.
-/

namespace ElCarro.StandbyDR.Metadata

open Lro (Err)
open Databases.Users (Casing)

section Fetch

/-- The value of a row that has one column; `function` is named in the error. -/
def singleColumnIn (function : String) : Row → Except String String
  | [(_, v)] => .ok v
  | row => .error (function ++ ": # of cols returned by query != 1: " ++ formatRow row)

/-- Run a query of one column; `response` is what the daemon answers. -/
def fetchColumn (function sql : String) (response : Except String (List Message)) :
    Except String (List String) :=
  match response with
  | .error err => .error ("failed to run query [\"" ++ sql ++ "\"]: " ++ err)
  | .ok messages =>
    match parseSQLResponse messages with
    | .error err => .error err
    | .ok rows => rows.mapM (singleColumnIn function)

def fetchLocal (sql : String) (response : Except String (List Message)) :
    Except String (List String) :=
  fetchColumn "fetchAndParseSingleColumnMultiRowQueriesLocal" sql response

/-- The query of the primary needs its password. -/
def fetchPrimary (sql : String) (password : Except String String)
    (response : Except String (List Message)) : Except String (List String) :=
  match password with
  | .error err => .error err
  | .ok _ => fetchColumn "fetchAndParseSingleColumnMultiRowQueries" sql response

end Fetch

section Tasks

def dbMetaDataListSQL : String :=
  "select value from V$parameter where name in ('compatible', 'db_domain', 'db_name', " ++
    "'db_unique_name', 'enable_pluggable_database')"

structure PrimaryMetadata where
  compatibility : String
  dbDomain : String
  dbName : String
  dbUniqueName : String
  enablePDB : String
  deriving DecidableEq, Repr

/-- The metadata after `initPrimaryMetadata`, or its error. -/
def initPrimaryMetadata (password : Except String String)
    (response : Except String (List Message)) : Except Err PrimaryMetadata :=
  match fetchPrimary dbMetaDataListSQL password response with
  | .error err =>
    .error (.status .unavailable ("initPrimaryData: Error while fetching meta data: " ++ err))
  | .ok [compatibility, dbDomain, dbName, dbUniqueName, enablePDB] =>
    .ok ⟨compatibility, dbDomain, dbName, dbUniqueName, enablePDB⟩
  -- The error that is printed here is the one of the fetch, which is nil.
  | .ok _ =>
    .error (.status .internal "initPrimaryData: Error while while fetching meta data: <nil>")

def standbyMetadataSQL : String :=
  "select value from V$parameter where name in ('db_domain', 'db_name')"

structure StandbyMetadata where
  dbDomain : String
  dbName : String
  deriving DecidableEq, Repr

/-- The metadata after `initStandbyMetadata`, or its error. -/
def initStandbyMetadata (response : Except String (List Message)) : Except Err StandbyMetadata :=
  match fetchLocal standbyMetadataSQL response with
  | .error err =>
    .error (.status .unavailable ("initStandbyMetadata: Error while fetching meta data: " ++ err))
  | .ok [dbDomain, dbName] => .ok ⟨dbDomain, dbName⟩
  | .ok _ =>
    .error (.status .internal "initStandbyMetadata: Error while while fetching meta data: <nil>")

def configLocationsSQL : String :=
  "select value from V$parameter where name in ('dg_broker_config_file1', " ++
    "'dg_broker_config_file2')"

/-- Where the broker keeps the two copies of its configuration. -/
structure ConfigLocations where
  configFile1 : String
  configFile2 : String
  deriving DecidableEq, Repr

def wantConfigFile (name : String) : String :=
  String.ofList (SlashPath.join "/u02/app/oracle/oraconfig".toList name.toList)

def wantConfigLocations (dbUniqueName : String) : ConfigLocations :=
  ⟨wantConfigFile ("dr1" ++ dbUniqueName ++ ".dat"),
    wantConfigFile ("dr2" ++ dbUniqueName ++ ".dat")⟩

/-- The locations that are compared with the wanted ones; there are to be two. -/
def comparedLocations : List String → Option ConfigLocations
  | [configFile1, configFile2] => some ⟨configFile1, configFile2⟩
  | _ => none

/-- How the check of the locations ends; `panicked` is an index out of range. -/
inductive Ending where
  | done (commands : List String)
  | failed (err : String)
  | panicked
  deriving DecidableEq, Repr

def ensureConfigLocation (casing : Casing) (dbUniqueName : String)
    (locations enabled : Except String (List Message)) (update : Option String) : Ending :=
  match fetchLocal configLocationsSQL locations with
  | .error err => .failed ("ensureConfigLocation: Error while getting dg broker config files " ++
      "location on standby: " ++ err)
  | .ok configLocations =>
    let want := wantConfigLocations dbUniqueName
    if comparedLocations configLocations = some want then .done []
    else match fetchLocal "select value from V$parameter where name='dg_broker_start'" enabled with
      | .error err => .failed ("ensureDataGuardBrokerEnable: Error while checking dg broker " ++
          "enable on standby: " ++ err)
      | .ok [] => .panicked
      | .ok (dgEnable :: _) =>
        if casing.equalFold dgEnable "true" then .done []
        else match update with
          | some err => .failed ("ensureConfigLocation: Error while setting dg broker config " ++
              "files location on standby: " ++ err)
          | none => .done
            ["alter system set dg_broker_config_file1='" ++ want.configFile1 ++ "' scope=both",
              "alter system set dg_broker_config_file2='" ++ want.configFile2 ++ "' scope=both"]

end Tasks

section Orders

/-- The parameters of a database, and the texts of their rows. -/
structure Database where
  value : String → String
  json : String → String

/-- The rows of some parameters, in the order in which the database returns them. -/
structure Answer (names : List String) where
  db : Database
  order : List String
  perm : order.Perm names

def primaryParameters : List String :=
  ["compatible", "db_domain", "db_name", "db_unique_name", "enable_pluggable_database"]

def standbyParameters : List String := ["db_domain", "db_name"]

def locationParameters : List String := ["dg_broker_config_file1", "dg_broker_config_file2"]

variable {names : List String}

def Answer.messages (a : Answer names) : List Message :=
  a.order.map fun name => ⟨a.db.json name, .ok [("VALUE", a.db.value name)]⟩

/-- The rows have the values in the order of the names. -/
def Answer.InOrder (a : Answer names) : Prop := a.order.map a.db.value = names.map a.db.value

instance (a : Answer names) : Decidable a.InOrder := inferInstanceAs (Decidable (_ = _))

theorem fetchColumn_messages (a : Answer names) (function sql : String) :
    fetchColumn function sql (.ok a.messages) = .ok (a.order.map a.db.value) := by
  have hrows : parseSQLResponse a.messages =
      .ok (a.order.map fun name => [("VALUE", a.db.value name)]) := by
    rw [parseSQLResponse, Answer.messages, List.mapM_map]
    exact List.mapM_pure
  rw [fetchColumn]
  simp only [hrows, List.mapM_map]
  exact List.mapM_pure

/-- Each field of the created standby has the value of its parameter. -/
def PrimaryFits (password : String) (a : Answer primaryParameters) : Prop :=
  initPrimaryMetadata (.ok password) (.ok a.messages) =
    .ok { compatibility := a.db.value "compatible", dbDomain := a.db.value "db_domain",
          dbName := a.db.value "db_name", dbUniqueName := a.db.value "db_unique_name",
          enablePDB := a.db.value "enable_pluggable_database" }

def StandbyFits (a : Answer standbyParameters) : Prop :=
  initStandbyMetadata (.ok a.messages) =
    .ok { dbDomain := a.db.value "db_domain", dbName := a.db.value "db_name" }

/-- The locations that are compared are those of the first and the second file. -/
def LocationsFit (a : Answer locationParameters) : Prop :=
  (fetchLocal configLocationsSQL (.ok a.messages)).toOption.bind comparedLocations =
    some { configFile1 := a.db.value "dg_broker_config_file1",
           configFile2 := a.db.value "dg_broker_config_file2" }

theorem Answer.length_values (a : Answer names) :
    (a.order.map a.db.value).length = names.length := by
  rw [List.length_map, a.perm.length_eq]

theorem primaryFits_iff {password : String} {a : Answer primaryParameters} :
    PrimaryFits password a ↔ a.InOrder := by
  have hlen : (a.order.map a.db.value).length = 5 := a.length_values
  rw [PrimaryFits, initPrimaryMetadata, fetchPrimary, Answer.InOrder]
  simp only [fetchColumn_messages]
  match a.order.map a.db.value, hlen with
  | [v, w, x, y, z], _ => simp [primaryParameters]

theorem standbyFits_iff {a : Answer standbyParameters} : StandbyFits a ↔ a.InOrder := by
  have hlen : (a.order.map a.db.value).length = 2 := a.length_values
  rw [StandbyFits, initStandbyMetadata, fetchLocal, Answer.InOrder]
  simp only [fetchColumn_messages]
  match a.order.map a.db.value, hlen with
  | [v, w], _ => simp [standbyParameters]

theorem locationsFit_iff {a : Answer locationParameters} : LocationsFit a ↔ a.InOrder := by
  have hlen : (a.order.map a.db.value).length = 2 := a.length_values
  rw [LocationsFit, fetchLocal, Answer.InOrder]
  simp only [fetchColumn_messages, Except.toOption, Option.bind_some]
  match a.order.map a.db.value, hlen with
  | [v, w], _ => simp [comparedLocations, locationParameters]

/-- Locations that fit and are as wanted are left alone. -/
theorem ensureConfigLocation_of_wanted {a : Answer locationParameters} (hfit : LocationsFit a)
    {dbUniqueName : String} (hwant : wantConfigLocations dbUniqueName =
      ⟨a.db.value "dg_broker_config_file1", a.db.value "dg_broker_config_file2"⟩)
    (casing : Casing) (enabled : Except String (List Message)) (update : Option String) :
    ensureConfigLocation casing dbUniqueName (.ok a.messages) enabled update = .done [] := by
  have hfetch : fetchLocal configLocationsSQL (.ok a.messages) =
      .ok (a.order.map a.db.value) := fetchColumn_messages a _ _
  rw [LocationsFit, hfetch] at hfit
  have hcompared : comparedLocations (a.order.map a.db.value) =
      some (wantConfigLocations dbUniqueName) := by
    rw [hwant]
    exact hfit
  rw [ensureConfigLocation, hfetch]
  simp only [hcompared, if_true]

/-- Every field and every location that is compared has the value of its parameter exactly
when the values come in the order of the fields. -/
theorem standbyTasks_fit_iff (password : String) (primary : Answer primaryParameters)
    (standby : Answer standbyParameters) (locations : Answer locationParameters) :
    PrimaryFits password primary ∧ StandbyFits standby ∧ LocationsFit locations ↔
      primary.InOrder ∧ standby.InOrder ∧ locations.InOrder := by
  rw [primaryFits_iff, standbyFits_iff, locationsFit_iff]

/-- The name of a database becomes its domain. -/
theorem swapped_rows_do_not_fit :
    let db : Database := ⟨fun name => if name = "db_name" then "GCLOUD" else "gke", id⟩
    let standby : Answer standbyParameters := ⟨db, ["db_name", "db_domain"], .swap _ _ _⟩
    initStandbyMetadata (.ok standby.messages) = .ok ⟨"GCLOUD", "gke"⟩ ∧
      ¬ StandbyFits standby := by
  intro db standby
  refine ⟨by rw [initStandbyMetadata, fetchLocal, fetchColumn_messages]; rfl, ?_⟩
  rw [standbyFits_iff]
  decide +kernel

end Orders

end ElCarro.StandbyDR.Metadata
