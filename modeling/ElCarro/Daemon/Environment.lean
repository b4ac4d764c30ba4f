import Mathlib.Data.Fintype.Basic
import ElCarro.Lib.Runs
import ElCarro.Lib.SharedEnv

/-! # The environment of the daemon

The handlers of the daemon select a database with ORACLE_SID and a network configuration
with TNS_ADMIN, and both belong to the whole process. Some handlers hold the lock of
`databaseSid` while they set and use them, some share it, and some do not take it.
-/

namespace ElCarro.Daemon

open SharedEnv

inductive Var where
  | oracleSid
  | tnsAdmin
  /-- ORACLE_SID of the proxy, which is another process and the one that starts `nid`. -/
  | proxySid
  deriving DecidableEq, Repr

instance : Fintype Var where
  elems := {.oracleSid, .tnsAdmin, .proxySid}
  complete := by
    intro x
    cases x <;> decide

inductive Tool where
  /-- A connection; a local one as sysdba goes to the database of ORACLE_SID. -/
  | sql (sysdba : Bool)
  | rman
  | dataGuard
  | nid
  /-- `impdp`, `expdp` and `datapatch`. -/
  | command
  deriving DecidableEq, Repr

def Tool.relies : Tool → Var → Bool
  | .sql true, .oracleSid => true
  | .sql _, .tnsAdmin => true
  | .rman, .oracleSid => true
  | .rman, .tnsAdmin => true
  | .dataGuard, .oracleSid => true
  | .dataGuard, .tnsAdmin => true
  | .nid, .proxySid => true
  | _, _ => false

abbrev Program := List (Act Var String Tool)

section Requests

inductive ConnectInfo where
  | unset
  | isLocal
  | dsn (dsn : String)
  | databaseName (name : String)
  deriving DecidableEq, Repr

structure RunSQLPlusCMDRequest where
  commands : List String
  tnsAdmin : String := ""
  connectInfo : ConnectInfo := .unset
  deriving DecidableEq, Repr

structure CheckDatabaseStateRequest where
  databaseName : String
  isCdb : Bool
  deriving DecidableEq, Repr

structure RunRMANRequest where
  scripts : List String
  tnsAdmin : String := ""
  deriving DecidableEq, Repr

structure NIDRequest where
  sid : String
  databaseName : String
  deriving DecidableEq, Repr

structure BounceDatabaseRequest where
  startup : Bool
  avoidConfigBackup : Bool
  deriving DecidableEq, Repr

structure PhysicalRestoreRequest where
  restoreStatement : String
  latestRecoverableScnQuery : String
  pitrRestoreInput : Bool
  deriving DecidableEq, Repr

/-- What a handler meets on its way. -/
structure Course where
  /-- The first connection that is opened answers. -/
  pingOk : Bool
  password : String
  /-- `databaseSid`, as it is read for the paths of files. -/
  databaseSid : String
  /-- An earlier check has left its connection string. -/
  pdbConnStr : Bool
  /-- Tablespaces of the dump that the PDB does not have. -/
  ts : List String
  tsTemp : List String
  /-- The statement that recovers the database. -/
  recoverStatement : String
  deriving DecidableEq, Repr

end Requests

section Handlers

variable (c : Course)

/-- `strings.ToLower`, exact on what it maps to letters of ASCII. -/
def toLower (s : String) : List Char :=
  s.toList.map fun ch => if ch = 'İ' then 'i' else if ch = 'K' then 'k' else ch.toLower

/-- Only a statement that creates an spfile or a pfile may use a preliminary connection. -/
def prelim (formattedSQL : Bool) : List String → Bool
  | [] => false
  | sql :: _ => !formattedSQL &&
    ("create spfile".toList.isPrefixOf (toLower sql) ||
      "create pfile".toList.isPrefixOf (toLower sql))

/-- `open` connects again when it is to be preliminary and the first connection fails. -/
def openDB (sysdba prelim : Bool) : Program :=
  .use (.sql sysdba) :: if !c.pingOk && prelim then [.use (.sql sysdba)] else []

/-- TNS_ADMIN is set until the function returns, if the request has one. -/
def withTnsAdmin (tnsAdmin : String) (body : Program) : Program :=
  if tnsAdmin = "" then body else .setDeferred .tnsAdmin tnsAdmin :: body ++ [.leave]

def selectDatabase : ConnectInfo → Program
  | .dsn _ => []
  | .databaseName name => [.set .oracleSid name]
  | .isLocal => [.setStored .oracleSid]
  | .unset => [.setStored .oracleSid]

def ConnectInfo.sysdba : ConnectInfo → Bool
  | .dsn _ => false
  | _ => true

def runSQLPlusHelper (req : RunSQLPlusCMDRequest) (formattedSQL : Bool) : Program :=
  withTnsAdmin req.tnsAdmin <|
    if req.commands = [] then []
    else selectDatabase req.connectInfo ++
      openDB c req.connectInfo.sysdba (prelim formattedSQL req.commands)

def runSQLPlus (req : RunSQLPlusCMDRequest) : Program :=
  .lock :: runSQLPlusHelper c req false ++ [.leave]

def runSQLPlusFormatted (req : RunSQLPlusCMDRequest) : Program :=
  .lock :: runSQLPlusHelper c req true ++ [.leave]

def listPDBsSQL : String := "select name from v$containers where name !='CDB$ROOT'"

def knownPDBs (includeSeed onlyOpen : Bool) : Program :=
  let sql := if includeSeed then listPDBsSQL else listPDBsSQL ++ " and name != 'PDB$SEED'"
  let sql := if onlyOpen then sql ++ " and open_mode = 'READ WRITE'" else sql
  runSQLPlusHelper c { commands := [sql] } true

def knownPDBsRpc (includeSeed onlyOpen : Bool) : Program :=
  .rLock :: knownPDBs c includeSeed onlyOpen ++ [.leave]

/-- `SetupConnStringOnServer` and `SetupUserPwConnStringOnServer`. -/
def setupConnStringOnServer (username : String) : Program :=
  runSQLPlus c { commands := ["alter user " ++ username ++ " identified by " ++ c.password] }

def checkDatabaseState (req : CheckDatabaseStateRequest) : Program :=
  if req.databaseName = "" then []
  else if req.isCdb then
    .set .oracleSid req.databaseName ::
      setupConnStringOnServer c "gcsql$security" ++ [.use (.sql false)]
  else
    knownPDBs c false false ++
      (if c.pdbConnStr then [] else setupConnStringOnServer c "gcsql$security") ++
      [.use (.sql false)]

def runRMAN (req : RunRMANRequest) : Program :=
  .rLock :: .setStored .oracleSid ::
    withTnsAdmin req.tnsAdmin (req.scripts.map fun _ => .use .rman) ++ [.leave]

def runDataGuard (scripts : List String) : Program :=
  .rLock :: .setStored .oracleSid :: (scripts.map fun _ => .use .dataGuard) ++ [.leave]

/-- ORACLE_SID is set before the lock is taken, and in the daemon only. -/
def nid (req : NIDRequest) : Program :=
  if req.sid = "" then []
  else
    .set .oracleSid req.sid :: .lock ::
      (if req.databaseName = "" then [] else [.store req.databaseName]) ++
      [.choose .proxySid req.sid, .use .nid, .leave]

def configDir (cdbName : String) : String := "/u02/app/oracle/oraconfig/" ++ cdbName

def backupConfigFile (cdbName : String) : Program :=
  let backupPFileLoc := configDir cdbName ++ "/pfile.lkws"
  runSQLPlusHelper c { commands := ["create pfile='" ++ backupPFileLoc ++ "' from spfile"] } false

def bounceDatabase (req : BounceDatabaseRequest) : Program :=
  .rLock ::
    (if req.startup && !req.avoidConfigBackup then backupConfigFile c c.databaseSid else []) ++
    [.leave]

def recoverConfigFile (cdbName : String) : Program :=
  let backupPFileLoc := configDir cdbName ++ "/pfile.lkws"
  let spFileLoc := configDir cdbName ++ "/spfile" ++ cdbName ++ ".ora"
  runSQLPlusHelper c
    { commands := ["create spfile='" ++ spFileLoc ++ "' from pfile='" ++ backupPFileLoc ++ "'"] }
    false

def runCommand : Program := [.setStored .oracleSid, .use .command]

def querySetSessionContainer (pdbName : String) : String :=
  "alter session set container=" ++ pdbName

def createTablespacesFromSqlfile (pdbName : String) : Program :=
  runSQLPlusFormatted c
    { commands := [querySetSessionContainer pdbName,
        "select contents, tablespace_name from dba_tablespaces"] } ++
  (c.ts.flatMap fun t => runSQLPlus c
    { commands := [querySetSessionContainer pdbName,
        "create bigfile tablespace \"" ++ t ++ "\""] }) ++
  c.tsTemp.flatMap fun t => runSQLPlus c
    { commands := [querySetSessionContainer pdbName,
        "create temporary tablespace \"" ++ t ++ "\" size 128M autoextend on"] }

def dataPumpImport (pdbName : String) : Program :=
  setupConnStringOnServer c "gcsql$pdbloader" ++ runCommand ++
    createTablespacesFromSqlfile c pdbName ++ runCommand

def dataPumpExport : Program := setupConnStringOnServer c "gcsql$pdbloader" ++ runCommand

/-- The database is put into upgrade mode before ORACLE_SID is set. -/
def applyDataPatch : Program :=
  .lock :: .chooseStored .oracleSid :: .use (.sql true) :: runCommand ++
    .use (.sql true) :: runCommand ++ [.leave]

def physicalRestore (req : PhysicalRestoreRequest) : Program :=
  runRMAN { scripts := [req.restoreStatement] } ++
    (if req.pitrRestoreInput then
      runRMAN { scripts := ["catalog start with '/u03/app/oracle/rmanstaging/pitr' noprompt;"] }
    else runSQLPlusFormatted c { commands := [req.latestRecoverableScnQuery] }) ++
    runRMAN { scripts := [c.recoverStatement] }

def createListener (excludePdb : Bool) : Program :=
  if excludePdb then []
  else runSQLPlusFormatted c
    { commands := ["select pdb_name from dba_pdbs where pdb_name!='PDB$SEED'"] }

end Handlers

section System

inductive Rpc where
  | runSQLPlus (req : RunSQLPlusCMDRequest)
  | runSQLPlusFormatted (req : RunSQLPlusCMDRequest)
  | knownPDBs (includeSeed onlyOpen : Bool)
  | checkDatabaseState (req : CheckDatabaseStateRequest)
  | runRMAN (req : RunRMANRequest)
  | runDataGuard (scripts : List String)
  | nid (req : NIDRequest)
  | bounceDatabase (req : BounceDatabaseRequest)
  | recoverConfigFile (cdbName : String)
  | dataPumpImport (pdbName : String)
  | dataPumpExport
  | applyDataPatch
  | physicalRestore (req : PhysicalRestoreRequest)
  | createListener (excludePdb : Bool)
  | createCDB
  | getDatabaseName
  deriving DecidableEq, Repr

def Rpc.program (c : Course) : Rpc → Program
  | .runSQLPlus req => Daemon.runSQLPlus c req
  | .runSQLPlusFormatted req => Daemon.runSQLPlusFormatted c req
  | .knownPDBs includeSeed onlyOpen => knownPDBsRpc c includeSeed onlyOpen
  | .checkDatabaseState req => Daemon.checkDatabaseState c req
  | .runRMAN req => Daemon.runRMAN req
  | .runDataGuard scripts => Daemon.runDataGuard scripts
  | .nid req => Daemon.nid req
  | .bounceDatabase req => Daemon.bounceDatabase c req
  | .recoverConfigFile cdbName => Daemon.recoverConfigFile c cdbName
  | .dataPumpImport pdbName => Daemon.dataPumpImport c pdbName
  | .dataPumpExport => Daemon.dataPumpExport c
  | .applyDataPatch => Daemon.applyDataPatch
  | .physicalRestore req => Daemon.physicalRestore c req
  | .createListener excludePdb => Daemon.createListener c excludePdb
  | .createCDB => Daemon.bounceDatabase c ⟨false, false⟩
  | .getDatabaseName => [.rLock, .leave]

inductive Event where
  | call (rpc : Rpc) (c : Course)
  /-- The next step of a handler. -/
  | act (i : Nat)
  /-- A handler returns an error. -/
  | fail (i : Nat)
  /-- The proxy sets its own ORACLE_SID. -/
  | proxy (sid : String)
  deriving DecidableEq, Repr

abbrev Server := Process Var String Tool

def Event.toEnv : Event → SharedEnv.Event Var String Tool
  | .call rpc c => .start (rpc.program c)
  | .act i => .act i
  | .fail i => .fail i
  | .proxy sid => .outside .proxySid sid

def step (s : Server) (e : Event) : Option Server := SharedEnv.step s e.toEnv

/-- Every execution so far ran with what its own request selected. -/
def OwnSelection (s : Server) : Prop := ∀ u ∈ s.log, u.Right Tool.relies

instance (s : Server) : Decidable (OwnSelection s) :=
  inferInstanceAs (Decidable (∀ u ∈ s.log, ∀ x, Tool.relies u.tool x = true →
    u.seen x = u.chosen x))

/-- What a handler still relies on is not set to another value by others. -/
def Apart (s : Server) (e : Event) : Prop := Undisturbed Tool.relies s e.toEnv

instance (s : Server) (e : Event) : Decidable (Apart s e) :=
  inferInstanceAs (Decidable (Undisturbed Tool.relies s e.toEnv))

/-- A daemon that has not served any request. -/
def fresh (env : Var → Option String) (databaseSid : String) : Server :=
  ⟨env, databaseSid, none, [], [], []⟩

end System

section Executions

theorem settled_fresh (env : Var → Option String) (databaseSid : String) :
    Settled Tool.relies (fresh env databaseSid) := by
  constructor
  · intro j th hth
    simp [fresh] at hth
  · intro u hu
    simp [fresh] at hu

/-- As long as nobody sets what another handler relies on, every execution has the ORACLE_SID and
the TNS_ADMIN of its own request. -/
theorem ownSelection_of_apart (env : Var → Option String) (databaseSid : String)
    (es : List Event) (hapart : Runs.Meets step Apart (fresh env databaseSid) es) :
    Runs.Always step OwnSelection (fresh env databaseSid) es := by
  have hinv : ∀ s e t, Settled Tool.relies s → Apart s e → step s e = some t →
      Settled Tool.relies t := by
    intro s e t hs hok hstep
    exact hs.step hok hstep
  apply Runs.always_of_invariant hinv ?_ (settled_fresh env databaseSid) hapart
  intro s hs
  exact hs.right

def smooth : Course := ⟨true, "Passw0rd", "GCLOUD", true, [], [], "recover database"⟩

/-- Scripts of RMAN and Data Guard overlap, and a statement for another database comes later. -/
def overlapping : List Event :=
  [.call (.runRMAN { scripts := ["backup database;"] }) smooth, .act 0, .act 0,
    .call (.runDataGuard ["show configuration"]) smooth, .act 1, .act 1, .act 0, .act 1,
    .act 0, .act 1,
    .call (.runSQLPlus { commands := ["select 1 from dual"], tnsAdmin := "/u02/tns",
                         connectInfo := .databaseName "STDBY" }) smooth,
    .act 2, .act 2, .act 2, .act 2, .act 2, .act 2]

theorem overlapping_ownSelection :
    (∃ s, Runs.run step (fresh (fun _ => none) "GCLOUD") overlapping = some s ∧
        s.log.map (·.tool) = [.sql true, .dataGuard, .rman]) ∧
      Runs.Always step OwnSelection (fresh (fun _ => none) "GCLOUD") overlapping :=
  ⟨⟨_, rfl, rfl⟩, ownSelection_of_apart _ _ _ (by decide)⟩

/-- While a statement for one database is about to run under the lock, a request to rename another
one sets ORACLE_SID without the lock. -/
def renamed : List Event :=
  [.call (.runSQLPlus { commands := ["select 1 from dual"], connectInfo := .databaseName "STDBY" })
      smooth, .act 0, .act 0,
    .call (.nid ⟨"CLONE", "CLONE"⟩) smooth, .act 1, .act 0]

theorem rename_misleads_sql :
    ∃ s, Runs.run step (fresh (fun _ => none) "GCLOUD") renamed = some s ∧ ¬ OwnSelection s :=
  ⟨_, rfl, by decide⟩

end Executions

end ElCarro.Daemon
