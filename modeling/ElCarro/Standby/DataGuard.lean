import ElCarro.Lib.Dialogue
import ElCarro.Standby.Broker
import ElCarro.Standby.Metadata

/-! # Setting up replication and ending it

The tasks that set up replication and those that promote a standby talk to the daemon of the
standby, which runs statements in the databases and scripts in the broker. A task asks before
it changes something; a task that returns an error ends the sequence.
-/

namespace ElCarro.StandbyDR.DataGuard

open Dialogue
open Databases.Users (Casing)
open Metadata (fetchColumn)

section Requests

def joinHostPort (host port : String) : String :=
  if host.toList.contains ':' then "[" ++ host ++ "]:" ++ port else host ++ ":" ++ port

def trimRight (text : String) (c : Char) : String :=
  String.ofList (text.toList.reverse.dropWhile (· == c)).reverse

/-- `EZ` -/
def ez (user pass host port svc : String) (asSysDba : Bool) : String :=
  if host = "" then ""
  else
    let uPart := if pass = "" then user else user ++ "/" ++ pass
    let cs := trimRight (joinHostPort host port) ':'
    let cs := if uPart = "" then cs else uPart ++ "@" ++ cs
    let cs := if svc = "" then cs else cs ++ "/" ++ svc
    if asSysDba then cs ++ " AS SYSDBA" else cs

def secureListenerPort : Int := 6021

def defaultDGConfigName : String := "el-carro-operator-config"

/-- A script of the broker. -/
inductive Script where
  | showConfiguration
  | removeConfiguration
  | disableDatabase (name : String)
  | removeDatabase (name : String)
  | showIdentifier (name : String)
  | setIdentifier (name identifier : String)
  | createConfiguration (primary identifier : String)
  | addDatabase (name identifier : String)
  | enableConfiguration
  deriving DecidableEq, Repr

def Script.text : Script → String
  | .showConfiguration => "show configuration"
  | .removeConfiguration => "remove configuration"
  | .disableDatabase name => "disable database " ++ name
  | .removeDatabase name => "remove database " ++ name
  | .showIdentifier name => "show database " ++ name ++ " dgconnectidentifier"
  | .setIdentifier name identifier =>
    "edit database '" ++ name ++ "' set property 'dgconnectidentifier'='" ++ identifier ++ "'"
  | .createConfiguration primary identifier =>
    "create configuration " ++ defaultDGConfigName ++ " as primary database is " ++ primary ++
      " connect identifier is '" ++ identifier ++ "'"
  | .addDatabase name identifier =>
    "add database " ++ name ++ " as connect identifier is '" ++ identifier ++
      "' maintained as physical"
  | .enableConfiguration => "enable configuration"

/-- Statements that are run in the standby. -/
inductive Statement where
  | mountStandby
  | addStandbyLogfile (size : String)
  | setConfigFiles (want : Metadata.ConfigLocations)
  | startBroker
  | cancelMRP
  | activateStandby
  | openDatabase
  deriving DecidableEq, Repr

def Statement.commands : Statement → List String
  | .mountStandby => ["alter database mount standby database"]
  | .addStandbyLogfile size => ["alter database add standby logfile thread 1 size " ++ size ++ "M"]
  | .setConfigFiles want =>
    ["alter system set dg_broker_config_file1='" ++ want.configFile1 ++ "' scope=both",
      "alter system set dg_broker_config_file2='" ++ want.configFile2 ++ "' scope=both"]
  | .startBroker => ["alter system set dg_broker_start=true scope=both"]
  | .cancelMRP => ["alter database recover managed standby database cancel"]
  | .activateStandby => ["alter database activate physical standby database"]
  | .openDatabase => ["alter database open"]

inductive LocalQuery where
  | openMode | standbyLog | configLocations | brokerStart | listMRP | listPrimaryRole
  | listOpenDatabase
  deriving DecidableEq, Repr

def LocalQuery.sql : LocalQuery → String
  | .openMode => "select open_mode from v$database"
  | .standbyLog => "select group# from v$standby_log"
  | .configLocations => Metadata.configLocationsSQL
  | .brokerStart => "select value from V$parameter where name='dg_broker_start'"
  | .listMRP => "select process, delay_mins from v$managed_standby where process like 'MRP%'"
  | .listPrimaryRole => "select database_role from v$database where database_role='PRIMARY'"
  | .listOpenDatabase => "select instance_name, status from v$instance where status='OPEN'"

inductive PrimaryQuery where
  | dbName | dbUniqueName | logBytes
  deriving DecidableEq, Repr

def PrimaryQuery.sql : PrimaryQuery → String
  | .dbName => "select value from V$parameter where name='db_name'"
  | .dbUniqueName => "select value from V$parameter where name='db_unique_name'"
  | .logBytes => "select bytes/1024/1024 from v$log"

/-- The broker that runs the scripts. -/
inductive Target where
  | standby
  | primary (connection : String)
  deriving DecidableEq, Repr

def Target.text : Target → String
  | .standby => "/"
  | .primary connection => connection

/-- What the tasks ask for. A listener is created for the secure port and the service of the
primary, without pluggable databases. -/
inductive Request where
  | password
  | tnsPing (connection : String)
  | createListener (databaseName cdbServiceName : String)
  | startupNomount (databaseName : String)
  | execute (statement : Statement)
  | query (q : LocalQuery)
  | queryPrimary (q : PrimaryQuery) (dsn : String)
  | runDataGuard (target : Target) (scripts : List Script)
  | downloadDirectory (gcsPath localPath : String)
  deriving DecidableEq, Repr

/-- What they are told; where nothing is to be told, the error if there is one. -/
abbrev Reply : Request → Type
  | .password => Except String String
  | .query _ => Except String (List Message)
  | .queryPrimary _ _ => Except String (List Message)
  | .runDataGuard _ _ => Except String (List String)
  | _ => Option String

/-- A task returns an error, or it indexes a slice out of its range. -/
inductive Stop where
  | failed (err : String)
  | panicked
  deriving DecidableEq, Repr

abbrev T := Talk Request Reply Stop

def ask (q : Request) : T (Reply q) := Talk.request q

def failWith {α : Type} (err : String) : T α := .fail (.failed err)

/-- Go on if there is no error, else return it behind a text. -/
def orFail (text : String) : Option String → T Unit
  | none => pure ()
  | some err => failWith (text ++ err)

/-- The first element of a slice. -/
def first : List String → T String
  | [] => .fail .panicked
  | v :: _ => pure v

end Requests

/-- The two databases, and where the password file is. -/
structure Parties where
  primary : Primary
  user : String
  dbUniqueName : String
  standbyHost : String
  standbyPort : Int
  passwordFileGcsPath : String

variable (casing : Casing) (parties : Parties)

/-- The identifier under which the standby is to be reached; its listener has the service of
the primary. -/
def wantStandby : String :=
  ez "" "" parties.standbyHost (toString parties.standbyPort) parties.primary.service false

def wantPrimary : String :=
  ez "" "" parties.primary.host (toString parties.primary.port) parties.primary.service false

def primaryConnection (passwd : String) (asSysDba : Bool) : String :=
  ez parties.user passwd parties.primary.host (toString parties.primary.port)
    parties.primary.service asSysDba

section Fetch

def fetchLocal (q : LocalQuery) : T (Except String (List String)) := do
  pure (Metadata.fetchLocal q.sql (← ask (.query q)))

def fetchPrimary (q : PrimaryQuery) : T (Except String (List String)) := do
  match ← ask .password with
  | .error err => pure (.error err)
  | .ok passwd =>
    pure (fetchColumn "fetchAndParseSingleColumnMultiRowQueries" q.sql
      (← ask (.queryPrimary q (primaryConnection parties passwd true))))

/-- The rows of a response. -/
def fetchRows (sql : String) : Except String (List Message) → Except String (List Row)
  | .error err => .error ("failed to run query [\"" ++ sql ++ "\"]: " ++ err)
  | .ok response => parseSQLResponse response

/-- The rows of a query, or none if it fails; the error is logged. -/
def rowsOrNone (q : LocalQuery) : T (List Row) := do
  match fetchRows q.sql (← ask (.query q)) with
  | .error _ => pure []
  | .ok rows => pure rows

end Fetch

section DgConfig

/-- `buildTarget` of the broker of the standby. -/
def standbyDg : T (Except String Target) := pure (.ok .standby)

/-- `buildTarget` of the broker of the primary. -/
def primaryDg : T (Except String Target) := do
  match ← ask .password with
  | .error err => pure (.error err)
  | .ok passwd => pure (.ok (.primary (primaryConnection parties passwd false)))

variable (buildTarget : T (Except String Target))

/-- `exists` -/
def configExists : T Bool := do
  match ← buildTarget with
  | .error _ => pure false
  | .ok target =>
    match ← ask (.runDataGuard target [.showConfiguration]) with
    | .error _ => pure false
    | .ok _ => pure true

/-- One of the brokers has a configuration. The standby is asked first, so that no password is
needed. -/
def existsSomewhere : T Bool := do
  if ← configExists standbyDg then pure true else configExists (primaryDg parties)

/-- Run one script; `what` is what the error says has failed. -/
def runScript (script : Script) (what : String → String) : T (Option String) := do
  match ← buildTarget with
  | .error err => pure (some ("failed to build target: " ++ err))
  | .ok target =>
    match ← ask (.runDataGuard target [script]) with
    | .error err => pure (some (what err))
    | .ok _ => pure none

def remove : T (Option String) :=
  runScript buildTarget .removeConfiguration fun err =>
    "failed to remove configuration: " ++ err ++ ", with response: <nil>"

/-- The target is built once for both scripts. -/
def removeStandbyDB (dbUniqueName : String) : T (Option String) := do
  match ← buildTarget with
  | .error err => pure (some ("failed to build target: " ++ err))
  | .ok target =>
    match ← ask (.runDataGuard target [.disableDatabase dbUniqueName]) with
    | .error err => pure (some ("failed to disable database: " ++ err ++ ", with response: <nil>"))
    | .ok _ =>
      match ← ask (.runDataGuard target [.removeDatabase dbUniqueName]) with
      | .error err => pure (some ("failed to remove database: " ++ err ++ ", with response: <nil>"))
      | .ok _ => pure none

def members : T (Except String Broker.DgMembers) := do
  match ← buildTarget with
  | .error err => pure (.error ("failed to build target: " ++ err))
  | .ok target =>
    match ← ask (.runDataGuard target [.showConfiguration]) with
    | .error err => pure (.error ("failed to get DG configuration: " ++ err))
    | .ok output => pure (Broker.members output)

def connectIdentifier (uniqueName : String) : T (Except String String) := do
  match ← buildTarget with
  | .error err => pure (.error ("failed to build target: " ++ err))
  | .ok target =>
    match ← ask (.runDataGuard target [.showIdentifier uniqueName]) with
    | .error err => pure (.error ("failed to get connect identifier: " ++ err))
    | .ok output => pure (Broker.connectIdentifier output)

def setConnectIdentifier (uniqueName newIdentifier : String) : T (Option String) :=
  runScript buildTarget (.setIdentifier uniqueName newIdentifier) fun err =>
    "failed to update connect identifier(" ++ newIdentifier ++ ") for DB(" ++ uniqueName ++
      ") : " ++ err

end DgConfig

section SetUp

def ensureListener : T Unit := do
  let connection := ez "" "" "localhost" (toString secureListenerPort) parties.primary.service false
  match ← ask (.tnsPing connection) with
  | none => pure ()
  | some _ =>
    match ← fetchPrimary parties .dbName with
    | .error err => failWith ("ensureDatabase: Error while reading DB name from primary: " ++ err)
    | .ok dbName =>
      orFail "ensureListener: Error while while creating the listener: "
        (← ask (.createListener (← first dbName) parties.primary.service))

def ensureDatabase : T Unit := do
  match ← fetchLocal .openMode with
  | .ok _ => pure ()
  | .error _ =>
    match ← fetchPrimary parties .dbName with
    | .error err => failWith ("ensureDatabase: Error while reading DB name from primary: " ++ err)
    | .ok dbName =>
      orFail "ensureDatabase: Error while starting the standby database: "
        (← ask (.startupNomount (← first dbName)))
      orFail "ensureDatabase: Error while mount the standby database: "
        (← ask (.execute .mountStandby))

/-- Add a log for each size, until a row has none or a statement fails. -/
def addStandbyLogs : List Row → T Bool
  | [] => pure true
  | row :: rows =>
    match row.lookup "BYTES/1024/1024" with
    | none => pure false
    | some size => do
      match ← ask (.execute (.addStandbyLogfile size)) with
      | some _ => pure false
      | none => addStandbyLogs rows

/-- None of the errors is critical. -/
def ensureStandbyLog : T Unit := do
  match fetchRows LocalQuery.standbyLog.sql (← ask (.query .standbyLog)) with
  | .error _ => pure ()
  | .ok (_ :: _) => pure ()
  | .ok [] =>
    match ← ask .password with
    | .error _ => pure ()
    | .ok passwd =>
      match fetchRows PrimaryQuery.logBytes.sql
          (← ask (.queryPrimary .logBytes (primaryConnection parties passwd true))) with
      | .error _ => pure ()
      | .ok [] => pure ()
      | .ok (row :: rows) =>
        if ← addStandbyLogs (row :: rows) then
          -- one log more than the primary has, of the size of its first
          let _ ← ask (.execute (.addStandbyLogfile ((row.lookup "BYTES/1024/1024").getD "")))
          pure ()
        else pure ()

def brokerStarted (dgEnable : Except String (List String)) : T Bool :=
  match dgEnable with
  | .error err => failWith ("ensureDataGuardBrokerEnable: Error while checking dg broker enable on " ++
      "standby: " ++ err)
  | .ok values => do pure (casing.equalFold (← first values) "true")

def ensureConfigLocation : T Unit := do
  match ← fetchLocal .configLocations with
  | .error err => failWith ("ensureConfigLocation: Error while getting dg broker config files " ++
      "location on standby: " ++ err)
  | .ok configLocations =>
    let want := Metadata.wantConfigLocations parties.dbUniqueName
    if Metadata.comparedLocations configLocations = some want then pure ()
    else if ← brokerStarted casing (← fetchLocal .brokerStart) then pure ()
    else
      orFail ("ensureConfigLocation: Error while setting dg broker config files location on " ++
        "standby: ") (← ask (.execute (.setConfigFiles want)))

def ensureDataGuardBrokerEnable : T Unit := do
  if ← brokerStarted casing (← fetchLocal .brokerStart) then pure ()
  else
    orFail "ensureDataGuardBrokerEnable: Error while enabling dg broker on standby: "
      (← ask (.execute .startBroker))

def downloadPasswordFile : T (Option String) := do
  match ← fetchPrimary parties .dbName with
  | .error err =>
    pure (some ("downloadPasswordFile: Error while reading DB name from primary: " ++ err))
  | .ok dbName =>
    let name ← first dbName
    let dir := SlashPath.join "/u02/app/oracle/oraconfig".toList name.toList
    match ← ask (.downloadDirectory parties.passwordFileGcsPath
        (String.ofList (SlashPath.join dir ("orapw" ++ name).toList))) with
    | some err => pure (some ("downloadPasswordFile: Error while downloading file from GCS: " ++ err))
    | none => pure none

/-- Run scripts in the broker of the primary, with the errors of one task. -/
def runOnPrimary (accessing running : String) (scripts : List Script) : T Unit := do
  match ← ask .password with
  | .error err => failWith (accessing ++ err)
  | .ok passwd =>
    match ← ask (.runDataGuard (.primary (primaryConnection parties passwd false)) scripts) with
    | .error err => failWith (running ++ err)
    | .ok _ => pure ()

def ensureDGConfigExists : T Unit := do
  if ← existsSomewhere parties then pure ()
  else
    orFail "ensureDGConfigExists: Error while downloading password file: "
      (← downloadPasswordFile parties)
    match ← fetchPrimary parties .dbUniqueName with
    | .error err =>
      failWith ("ensureDGConfigExists: Error while fetching primary db unique name: " ++ err)
    | .ok vals =>
      let primaryUniqueName ← first vals
      runOnPrimary parties "ensureDGConfigExists: Error while accessing secret: "
        "ensureDGConfigExists: Error while creating DG configuration: "
        [.createConfiguration primaryUniqueName (wantPrimary parties),
          .addDatabase parties.dbUniqueName (wantStandby parties), .enableConfiguration]

/-- The identifier of the standby, from its own broker or else from the one of the primary. -/
def standbyIdentifier : T String := do
  match ← connectIdentifier standbyDg parties.dbUniqueName with
  | .ok got => pure got
  | .error _ =>
    match ← connectIdentifier (primaryDg parties) parties.dbUniqueName with
    | .ok got => pure got
    | .error err => failWith ("ensureDGConfigStandbyMatch: Error while reading standby connect " ++
        "identifier: " ++ err)

def ensureDGConfigStandbyMatch : T Unit := do
  if ← configExists standbyDg then
    let got ← standbyIdentifier parties
    if got = wantStandby parties then pure ()
    else
      orFail "ensureDGConfigStandbyMatch: Error while setting standby connect identifier: "
        (← setConnectIdentifier (primaryDg parties) parties.dbUniqueName (wantStandby parties))
  else
    -- the primary may have a configuration to which the standby was not added
    orFail "ensureDGConfigStandbyMatch: Error while downloading password file: "
      (← downloadPasswordFile parties)
    runOnPrimary parties "ensureDGConfigStandbyMatch: Error while accessing secret: "
      "ensureDGConfigStandbyMatch: Error while adding standby to DG configuration: "
      [.addDatabase parties.dbUniqueName (wantStandby parties), .enableConfiguration]

def ensureDGConfigPrimaryMatch : T Unit := do
  match ← members standbyDg with
  | .error err => failWith ("ensureDGConfigPrimaryMatch: Error while reading DG members: " ++ err)
  | .ok m =>
    match ← connectIdentifier standbyDg m.primary with
    | .error err => failWith ("ensureDGConfigPrimaryMatch: Error while reading primary connect " ++
        "identifier:: " ++ err)
    | .ok got =>
      if got = wantPrimary parties then pure ()
      else
        match ← fetchPrimary parties .dbUniqueName with
        | .error err => failWith ("ensureDGConfigPrimaryMatch: Error while fetching primary db " ++
            "unique name: " ++ err)
        | .ok vals =>
          let primaryUniqueName ← first vals
          orFail "ensureDGConfigPrimaryMatch: Error while setting primary connect identifier: "
            (← setConnectIdentifier (primaryDg parties) primaryUniqueName (wantPrimary parties))

end SetUp

section Promote

variable (toLower : String → String)

/-- A configuration with nothing but what the tasks have made is removed as a whole; from
another one only the standby is. -/
def removeDataGuardConfig : T Unit := do
  if ← existsSomewhere parties then
    match ← members (primaryDg parties) with
    | .error err => failWith ("removeDataGuardConfig: Error while reading DG members: " ++ err)
    | .ok m =>
      if m.configuration = defaultDGConfigName ∧ m.size = 1 ∧
          m.standbyContains casing parties.dbUniqueName then
        orFail "removeDataGuardConfig: Error while removing primary Data Guard configuration: "
          (← remove (primaryDg parties))
      else if m.standbyContains casing parties.dbUniqueName then
        orFail "removeDataGuardConfig: Error while removing standby Data Guard configuration: "
          (← removeStandbyDB (primaryDg parties) (toLower parties.dbUniqueName))
      else pure ()
  else pure ()

/-- Whether recovery can be cancelled is not critical. -/
def cancelRecovery : T Unit := do
  match ← rowsOrNone .listMRP with
  | [] => pure ()
  | _ :: _ =>
    let _ ← ask (.execute .cancelMRP)
    pure ()

/-- Run a statement unless a query has rows; an error of the query is taken for no rows. -/
def unlessRows (q : LocalQuery) (statement : Statement) (text : String) : T Unit := do
  match ← rowsOrNone q with
  | [] => orFail text (← ask (.execute statement))
  | _ :: _ => pure ()

def promoteStandby : T Unit := do
  cancelRecovery
  unlessRows .listPrimaryRole .activateStandby
    "promoteStandby: Error while promoting standby database: "
  unlessRows .listOpenDatabase .openDatabase
    "promoteStandby: Error while opening new primary database: "

end Promote

/-- `task.Do`: one task after the other, up to the first that returns an error. -/
def runTasks : List (T Unit) → T Unit
  | [] => pure ()
  | t :: ts => do
    t
    runTasks ts

def setUpDataGuard : T Unit :=
  runTasks [ensureListener parties, ensureDatabase parties, ensureStandbyLog parties,
    ensureConfigLocation casing parties, ensureDataGuardBrokerEnable casing,
    ensureDGConfigExists parties, ensureDGConfigStandbyMatch parties,
    ensureDGConfigPrimaryMatch parties]

def promote (toLower : String → String) : T Unit :=
  runTasks [removeDataGuardConfig casing parties toLower, promoteStandby]

end ElCarro.StandbyDR.DataGuard
