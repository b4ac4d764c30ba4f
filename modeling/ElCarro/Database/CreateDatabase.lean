import ElCarro.Database.Statements
import ElCarro.Lib.Flow

/-! # Creation of a PDB and its users

`CreateDatabase` and `CreateUsers` send requests to the daemon one after the other, and
`RunSQLPlus` runs the statements of a request up to the first that fails. The daemon
writes a log of that, in which a suppressed request does not show its statements.
-/

namespace ElCarro.Databases

open K8s Api Flow Users

section Daemon

inductive Severity where
  | info | warning | error
  deriving DecidableEq, Repr

inductive Logged where
  | text (s : String)
  | flag (b : Bool)
  | request (commands : List String) (suppress : Bool)
  deriving DecidableEq, Repr

structure LogLine where
  severity : Severity
  message : String
  err : Option String
  values : List (String × Logged)
  deriving DecidableEq, Repr

/-- What the connection and the engine do with a request, with the texts of their errors. -/
structure Execution where
  opened : Option String
  /-- Closing the pool of a connection that could not be opened. -/
  poolClosed : Option String
  enabled : Option String
  executed : Nat → Option String
  /-- Whether a statement that reports an error took effect nevertheless. -/
  tookEffect : Bool
  output : Nat → Except String (List String)
  closed : Option String
  /-- The answer of the daemon does not get to the controller. -/
  lost : Option String

/-- What has been done so far about a PDB, and its users. -/
structure PdbState where
  opened : Bool
  saved : Bool
  /-- The privileges that were granted, by grantee. -/
  grants : List (String × String)
  directories : List String
  accounts : Accounts

def noAccounts : Accounts := ⟨[], fun _ => none, by simp⟩

def newPdbState : PdbState := ⟨false, false, [], [], noAccounts⟩

structure Engine where
  /-- The PDBs, with their names in upper case. -/
  pdbs : List String
  detail : String → PdbState
  log : List LogLine

variable (casing : Casing) (sid : String)

/-- Change an account, if it is there. -/
def changeAccount (name : String) (f : Account → Account) (a : Accounts) : Accounts :=
  match a.account name with
  | none => a
  | some acc => a.set name (f acc)

def changePDB (pdb : String) (f : PdbState → PdbState) (e : Engine) : Engine :=
  { e with detail := Function.update e.detail pdb (f (e.detail pdb)) }

/-- The effect of a statement, in the container that the session is in. -/
def effect (container : String) (e : Engine) : Statement → Engine
  | .setSessionContainer _ => e
  | .createPDB p =>
    { e with
      pdbs := p.pluggableDatabaseName :: e.pdbs
      detail := Function.update e.detail p.pluggableDatabaseName { newPdbState with
        accounts := noAccounts.set pdbAdmin ⟨p.pluggableAdminPasswd, [], true⟩ } }
  | .openPDB pdbName => changePDB pdbName (fun d => { d with opened := true }) e
  | .saveState pdbName => changePDB pdbName (fun d => { d with saved := true }) e
  | .createDir dirName _ =>
    changePDB container (fun d => { d with directories := dirName :: d.directories }) e
  | .createUser name pass =>
    changePDB container (fun d =>
      { d with accounts := d.accounts.set (casing.toUpper name) ⟨pass, [], true⟩ }) e
  | .alterUser name pass =>
    changePDB container (fun d => { d with
      accounts := changeAccount (casing.toUpper name) (fun acc => { acc with password := pass })
        d.accounts }) e
  | .grantPrivileges privileges grantee =>
    changePDB container (fun d => { d with
      grants := (grantee, privileges) :: d.grants
      accounts := changeAccount (casing.toUpper grantee)
        (fun acc => { acc with privs := acc.privs ∪ privilegeNames privileges }) d.accounts }) e
  | .revokePrivileges privileges grantee =>
    changePDB container (fun d => { d with
      accounts := changeAccount (casing.toUpper grantee)
        (fun acc => { acc with privs := acc.privs.filter (· ∉ privilegeNames privileges) })
        d.accounts }) e

/-- The container after a statement. -/
def containerAfter (container : String) : Statement → String
  | .setSessionContainer pdbName => pdbName
  | _ => container

def sqlForLogging (req : Request) : String :=
  if req.suppress then "suppressed" else ";".intercalate (req.commands.map (·.text casing))

/-- Lines about an error carry it beside the statements. -/
def errorLine (message : String) (sql err : String) : LogLine :=
  ⟨.error, message, some err, [("sql", .text sql)]⟩

/-- The loop of `runSQL` from one statement on: the log, the effects and the output. -/
def runStatements (sql : String) (o : Execution) :
    Nat → String → List Statement → Engine → List LogLine × Engine × Except String (List String)
  | _, _, [], e => ([], e, .ok [])
  | i, container, st :: rest, e =>
    match o.executed i with
    | some err =>
      ([errorLine "dbdaemon/runSQL: failed to execute" sql err],
        if o.tookEffect then effect casing container e st else e, .error err)
    | none =>
      match o.output i with
      | .error err =>
        ([errorLine "dbdaemon/runSQL: failed to get DBMS_OUTPUT" sql err], effect casing container e st,
          .error err)
      | .ok out =>
        let (lines, e', res) :=
          runStatements sql o (i + 1) (containerAfter container st) rest
            (effect casing container e st)
        (lines, e', res.map (out ++ ·))

def runSQL (req : Request) (o : Execution) (e : Engine) :
    List LogLine × Engine × Except String (List String) :=
  let sql := sqlForLogging casing req
  match o.enabled with
  | some err => ([errorLine "dbdaemon/runSQL: failed to enable dbms_output" sql err], e, .error err)
  | none =>
    let (lines, e', res) := runStatements casing sql o 0 "CDB$ROOT" req.commands e
    (⟨.info, "dbdaemon/runSQL: running SQL statements", none, [("sql", .text sql)]⟩ :: lines, e', res)

def closeWarning (err : Option String) : List LogLine :=
  err.toList.map fun err => ⟨.warning, "failed to close db connection: " ++ err, none, []⟩

/-- None of the statements needs a preliminary connection. -/
def runSQLPlusHelper (req : Request) (o : Execution) (e : Engine) :
    List LogLine × Engine × Except String (List String) :=
  match o.opened with
  | some err =>
    (closeWarning o.poolClosed ++
        [⟨.error, "dbdaemon/open: newDB failed", some err, [("prelim", .flag false)]⟩], e,
      .error ("dbdaemon/RunSQLPlus failed to open a database connection: " ++ err))
  | none =>
    let (lines, e', res) := runSQL casing req o e
    let last : LogLine :=
      match res with
      | .error err =>
        ⟨.error, "dbdaemon/RunSQLPlus: error in execution", some err,
          [("formattedSQL", .flag false), ("ORACLE_SID", .text sid)]⟩
      | .ok out => ⟨.info, "dbdaemon/RunSQLPlus", none, [("output", .text ("\n".intercalate out))]⟩
    (lines ++ last :: closeWarning o.closed, e', res)

/-- The first line of a request. -/
def requestLine (req : Request) : LogLine where
  severity := .info
  message := "dbdaemon/RunSQLPlus"
  err := none
  values :=
    [("req", if req.suppress then .text "suppressed"
      else .request (req.commands.map (·.text casing)) req.suppress), ("SID", .text sid)]

def runSQLPlus (req : Request) (o : Execution) (e : Engine) :
    Engine × Except String (List String) :=
  let (lines, e', res) := runSQLPlusHelper casing sid req o e
  ({ e' with log := e'.log ++ requestLine casing sid req :: lines }, res)

end Daemon

/-- Why a call of the agent does not return its result. -/
inductive Failure where
  | error (message : String)
  /-- A text could not be built. -/
  | panic
  deriving DecidableEq, Repr

abbrev Agent := Prog Engine Failure

section Requests

variable (casing : Casing) (sid : String)

/-- Send a request, and give the error of the answer. -/
def sendSQL (req : Request) (o : Execution) : Agent (Option String) := fun e =>
  if ¬ req.valid casing then .done .panic e
  else
    let (e', res) := runSQLPlus casing sid req o e
    .next (match o.lost, res with
      | some err, _ => some err
      | none, .error err => some err
      | none, .ok _ => none) e'

/-- Return the error, if there is one. -/
def orFail (context : String) (err : Option String) : Agent Unit :=
  match err with
  | some err => finish (.error (context ++ err))
  | none => pure ()

end Requests

section CreateDatabase

structure CreateDatabaseRequest where
  name : String
  cdbName : String
  password : String
  lastPassword : String
  adminPasswordGsmSecretRef : Option SecretRequest

namespace CreateDatabaseRequest

def toUpdatePlaintextAdminPwd (req : CreateDatabaseRequest) : Bool :=
  req.password ≠ "" && req.password ≠ req.lastPassword

def toUpdateGsmAdminPwd (req : CreateDatabaseRequest) : Bool :=
  req.adminPasswordGsmSecretRef.any fun ref =>
    ref.version ≠ ref.lastVersion || ref.version = "latest"

def plaintextPwd (req : CreateDatabaseRequest) : String :=
  if req.toUpdatePlaintextAdminPwd then req.password else ""

/-- The password of the admin: a secret that is due comes before a plaintext one. -/
def pwd (secret : String → String) (req : CreateDatabaseRequest) : String :=
  match req.adminPasswordGsmSecretRef with
  | none => req.plaintextPwd
  | some ref =>
    if req.toUpdateGsmAdminPwd then secret (gsmResourceVersion ref.toGsmSecretRef)
    else req.plaintextPwd

end CreateDatabaseRequest

inductive CreateDatabaseStatus where
  | adminUserSyncCompleted | alreadyExists | ready
  deriving DecidableEq, Repr

/-- What one run of `CreateDatabase` meets; a text is that of an error. -/
structure CreateEnv where
  accessSecret : Option String
  hostname : Option String
  newClient : Option String
  checkDatabaseState : Option String
  checkPDB : Option String
  createDirs : Option String
  alterAdmin : Execution
  createPDB : Execution
  openPDB : Execution
  grants : Execution
  directory : Execution

def pdbLoaderUser : String := "gcsql$pdbloader"

def dpdumpDirOracle : String := "PDB_DATA_PUMP_DIR"

def adminPrivileges : String := "create session, dba"

def loaderPrivileges : String :=
  "create session, resource, datapump_imp_full_database, datapump_exp_full_database, unlimited tablespace"

def directoryPrivileges : String := "read,write on directory " ++ dpdumpDirOracle

section PdbRequests

variable (p : Pdb)

def alterAdminRequest : Request where
  commands := [.setSessionContainer p.pluggableDatabaseName, .alterUser pdbAdmin p.pluggableAdminPasswd]
  suppress := true

def createPDBRequest : Request := ⟨[.createPDB p], false⟩

def openPDBRequest : Request :=
  ⟨[.openPDB p.pluggableDatabaseName, .saveState p.pluggableDatabaseName], false⟩

def grantsRequest : Request where
  commands := [.setSessionContainer p.pluggableDatabaseName,
    .grantPrivileges adminPrivileges pdbAdmin, .grantPrivileges loaderPrivileges pdbLoaderUser]
  suppress := false

def directoryRequest : Request where
  commands := [.setSessionContainer p.pluggableDatabaseName,
    .createDir dpdumpDirOracle (p.pathPrefix ++ "/dmp"),
    .grantPrivileges directoryPrivileges pdbLoaderUser]
  suppress := false

end PdbRequests

variable (casing : Casing) (sid : String) (env : CreateEnv)

/-- A PDB that exists: all that is done is to set the password of the admin, if it is due. -/
def syncAdmin (changed : Bool) (p : Pdb) : Agent CreateDatabaseStatus := do
  if changed then do
    let err ← sendSQL casing sid (alterAdminRequest p) env.alterAdmin
    orFail ("failed to alter user " ++ pdbAdmin ++ ": ") err
    pure .adminUserSyncCompleted
  else pure .alreadyExists

/-- Errors of the grants and of the directory are only logged. -/
def createNew (p : Pdb) : Agent CreateDatabaseStatus := do
  orFail "failed to create PDB dirs: " env.createDirs
  let err ← sendSQL casing sid (createPDBRequest p) env.createPDB
  orFail ("config_agent_helpers/CreateDatabase: failed to create a PDB " ++
    p.pluggableDatabaseName ++ ": ") err
  let err ← sendSQL casing sid (openPDBRequest p) env.openPDB
  orFail ("config_agent_helpers/CreatePDBDatabase: PDB " ++ p.pluggableDatabaseName ++
    " open failed: ") err
  let _ ← sendSQL casing sid (grantsRequest p) env.grants
  let _ ← sendSQL casing sid (directoryRequest p) env.directory
  pure .ready

def createDatabase (toLower : String → String) (secret : String → String)
    (req : CreateDatabaseRequest) : Agent CreateDatabaseStatus := do
  when req.toUpdateGsmAdminPwd
    (orFail ("config_agent_helpers/CreateDatabase: failed to retrieve secret from " ++
      "Google Secret Manager: ") env.accessSecret)
  orFail "" env.hostname
  let p := buildPDB casing toLower req.cdbName req.name (req.pwd secret)
  orFail "config_agent_helpers/CreateDatabase: failed to create database daemon dbdClient: "
    env.newClient
  orFail "config_agent_helpers/CreateDatabase: failed to check a CDB state: " env.checkDatabaseState
  orFail ("config_agent_helpers/CreateDatabase: failed to check if a PDB called " ++
    p.pluggableDatabaseName ++ " already exists: ") env.checkPDB
  let e ← get
  if p.pluggableDatabaseName ∈ e.pdbs then
    syncAdmin casing sid env (req.toUpdateGsmAdminPwd || req.toUpdatePlaintextAdminPwd) p
  else createNew casing sid env p

end CreateDatabase

section CreateUsers

/-- What one run of `CreateUsers` meets. -/
structure CreateUsersEnv where
  hostname : Option String
  newClient : Option String
  checkDatabaseState : Option String
  accessSecret : String → Option String
  users : Execution
  privs : Execution

variable (casing : Casing) (sid : String) (env : CreateUsersEnv) (secret : String → String)

/-- The statements for the users with secrets; a secret with a double quote is refused. -/
def secretCmds : List UserSpec → Agent (List Statement)
  | [] => pure []
  | u :: rest =>
    match u.gsmSecretRef with
    | none => secretCmds rest
    | some ref =>
      if u.name = "" then secretCmds rest
      else do
        orFail ("config_agent_helpers/CreateUsers: failed to retrieve secret from " ++
          "Google Secret Manager: ") (env.accessSecret (gsmResourceVersion ref))
        when (¬ isIdentifier (secret (gsmResourceVersion ref)))
          (finish (.error ("config_agent_helpers/CreateUsers: Google Secret Manager contains an " ++
            "invalid password for user \"" ++ u.name ++ "\": identifier contains double quotes")))
        let cmds ← secretCmds rest
        pure (.createUser u.name (secret (gsmResourceVersion ref)) :: cmds)

/-- The statements that `NewUsers` builds for plaintext passwords, and for privileges. -/
def plaintextCmds (users : List UserSpec) : List Statement :=
  (users.filter (·.password ≠ "")).map fun u => .createUser u.name u.password

def grantCmds (users : List UserSpec) : List Statement :=
  users.flatMap fun u => u.privileges.map (.grantPrivileges · u.name)

/-- Users are created before anything is granted, which makes troubleshooting easier. -/
def runUserCmds (pdbName : String) (users : List UserSpec) (cmds : List Statement) : Agent Unit := do
  let container := Statement.setSessionContainer (casing.toUpper pdbName)
  let err ← sendSQL casing sid ⟨container :: plaintextCmds users ++ cmds, true⟩ env.users
  orFail ("config_agent_helpers/CreateUsers: failed to create users in a PDB " ++
    casing.toUpper pdbName ++ ": ") err
  let err ← sendSQL casing sid ⟨container :: grantCmds users, false⟩ env.privs
  orFail ("config_agent_helpers/CreateUsers: failed to grant privileges in a PDB " ++
    casing.toUpper pdbName ++ ": ") err

/-- `CreateUsers`, for a request whose plain texts `NewUsers` has built before. -/
def createUsers (pdbName : String) (users : List UserSpec) : Agent Unit := do
  when (¬ (plaintextCmds users ++ grantCmds users).all (·.valid casing)) (finish .panic)
  orFail "" env.hostname
  orFail "config_agent_helpers/CreateUsers: failed to create database daemon client: " env.newClient
  orFail "config_agent_helpers/CreateUsers: failed to check a CDB state: " env.checkDatabaseState
  let cmds ← secretCmds env secret users
  runUserCmds casing sid env pdbName users cmds

end CreateUsers

end ElCarro.Databases
