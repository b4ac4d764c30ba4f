import ElCarro.Database.Users

/-! # Statements and requests

The texts of the statements for the engine, and the requests in which the daemon gets
them. A name or a password with a double quote in it has no text: building one panics,
and nothing is sent.
-/

namespace ElCarro.Databases.Users

open K8s Api

section Statements

/-- The files and names of a new PDB, as far as its statements use them. -/
structure Pdb where
  pluggableDatabaseName : String
  pluggableAdminPasswd : String
  dataFilesDir : String
  defaultTablespace : String
  defaultTablespaceDatafile : String
  pathPrefix : String
  fileConvertFrom : String
  fileConvertTo : String
  deriving DecidableEq, Repr

def dataDir (cdbName : String) : String := "/u02/app/oracle/oradata/" ++ cdbName

def pdbPathPrefix (cdbName pdbName : String) : String := dataDir cdbName ++ "/" ++ pdbName

def pdbDataDir (cdbName pdbName : String) : String := pdbPathPrefix cdbName pdbName ++ "/data"

/-- All names of PDBs are in upper case, only the file of the users is not. -/
def buildPDB (casing : Casing) (toLower : String → String) (cdbName pdbName pdbAdminPass : String) :
    Pdb :=
  let pdbName := casing.toUpper pdbName
  { pluggableDatabaseName := pdbName
    pluggableAdminPasswd := pdbAdminPass
    dataFilesDir := pdbDataDir cdbName pdbName
    defaultTablespace := pdbName ++ "_USERS"
    defaultTablespaceDatafile := pdbDataDir cdbName pdbName ++ "/" ++ toLower pdbName ++ "_users.dbf"
    pathPrefix := pdbPathPrefix cdbName pdbName
    fileConvertFrom := dataDir cdbName ++ "/pdbseed"
    fileConvertTo := pdbDataDir cdbName pdbName }

inductive Statement where
  | setSessionContainer (pdbName : String)
  | createPDB (p : Pdb)
  | openPDB (pdbName : String)
  | saveState (pdbName : String)
  | createDir (dirName path : String)
  | createUser (name pass : String)
  | alterUser (name pass : String)
  | grantPrivileges (privileges grantee : String)
  | revokePrivileges (privileges grantee : String)
  deriving DecidableEq, Repr

def identifier (id : String) : String := "\"" ++ id ++ "\""

def objectName (casing : Casing) (id : String) : String := identifier (casing.toUpper id)

def stringParam (s : String) : String := s.replace "'" "''"

namespace Statement

/-- The names and the password can be quoted, and privileges look like privileges. -/
def valid (casing : Casing) : Statement → Bool
  | setSessionContainer pdbName => isIdentifier (casing.toUpper pdbName)
  | createPDB p =>
    isIdentifier (casing.toUpper p.pluggableDatabaseName) && isIdentifier (casing.toUpper pdbAdmin) &&
      isIdentifier p.pluggableAdminPasswd && isIdentifier (casing.toUpper p.defaultTablespace)
  | openPDB pdbName => isIdentifier (casing.toUpper pdbName)
  | saveState pdbName => isIdentifier (casing.toUpper pdbName)
  | createDir dirName _ => isIdentifier (casing.toUpper dirName)
  | createUser name pass => isIdentifier (casing.toUpper name) && isIdentifier pass
  | alterUser name pass => isIdentifier (casing.toUpper name) && isIdentifier pass
  | grantPrivileges privileges grantee =>
    isPrivilege privileges && isIdentifier (casing.toUpper grantee)
  | revokePrivileges privileges grantee =>
    isPrivilege privileges && isIdentifier (casing.toUpper grantee)

/-- What creates a PDB, up to the password of its admin and after it. -/
def beforePassword (casing : Casing) (p : Pdb) : String :=
  "create pluggable database " ++ objectName casing p.pluggableDatabaseName ++ " admin user " ++
    objectName casing pdbAdmin ++ " identified by "

def afterPassword (casing : Casing) (p : Pdb) : String :=
  " create_file_dest='" ++ stringParam p.dataFilesDir ++ "' default tablespace " ++
    objectName casing p.defaultTablespace ++ " datafile '" ++ stringParam p.defaultTablespaceDatafile ++
    "' size 1G autoextend on storage unlimited file_name_convert=('" ++
    stringParam p.fileConvertFrom ++ "', '" ++ stringParam p.fileConvertTo ++ "')"

def text (casing : Casing) : Statement → String
  | setSessionContainer pdbName => "alter session set container=" ++ objectName casing pdbName
  | createPDB p =>
    beforePassword casing p ++ identifier p.pluggableAdminPasswd ++ afterPassword casing p
  | openPDB pdbName => "alter pluggable database " ++ objectName casing pdbName ++ " open read write"
  | saveState pdbName => "alter pluggable database " ++ objectName casing pdbName ++ " save state"
  | createDir dirName path =>
    "create directory " ++ objectName casing dirName ++ " as '" ++ stringParam path ++ "'"
  | createUser name pass =>
    "create user " ++ objectName casing name ++ " identified by " ++ identifier pass
  | alterUser name pass =>
    "alter user " ++ objectName casing name ++ " identified by " ++ identifier pass
  | grantPrivileges privileges grantee =>
    "grant " ++ privileges ++ " to " ++ objectName casing grantee
  | revokePrivileges privileges grantee =>
    "revoke " ++ privileges ++ " from " ++ objectName casing grantee

/-- The user that a statement is for. -/
def user : Statement → Option String
  | createUser name _ => some name
  | alterUser name _ => some name
  | grantPrivileges _ grantee => some grantee
  | revokePrivileges _ grantee => some grantee
  | _ => none

end Statement

/-- A request to run statements; a suppressed one is not to be logged. -/
structure Request where
  commands : List Statement
  suppress : Bool
  deriving DecidableEq, Repr

def Request.valid (casing : Casing) (r : Request) : Bool := r.commands.all (·.valid casing)

/-- Nothing is sent when one of the texts cannot be built. -/
def send (casing : Casing) (r : Request) : List Request := if r.valid casing then [r] else []

end Statements

section Repository

variable {casing : Casing} (cat : Catalog) (secret : String → String) (env : Env) (databaseName : String)

namespace DbUser

def createRequest (u : DbUser casing) : Request where
  commands := .setSessionContainer databaseName :: .createUser u.userName u.newPassword ::
    u.specPrivs.map (.grantPrivileges · u.userName)
  suppress := false

def grantRequest (u : DbUser casing) (toGrant : List String) : Request where
  commands := .setSessionContainer databaseName :: toGrant.map (.grantPrivileges · u.userName)
  suppress := false

def revokeRequest (u : DbUser casing) (toRevoke : List String) : Request where
  commands := .setSessionContainer databaseName :: toRevoke.map (.revokePrivileges · u.userName)
  suppress := false

def passwordRequest (u : DbUser casing) : Request where
  commands := [.setSessionContainer databaseName, .alterUser u.userName u.newPassword]
  suppress := true

/-- What `create` sends. -/
def createSends (u : DbUser casing) : List Request := send casing (u.createRequest databaseName)

def grantSends (u : DbUser casing) (toGrant : List String) : List Request :=
  if toGrant = [] then [] else send casing (u.grantRequest databaseName toGrant)

def revokeSends (u : DbUser casing) (toRevoke : List String) : List Request :=
  if toRevoke = [] then [] else send casing (u.revokeRequest databaseName toRevoke)

def updatePrivsSends (stage : Stage) (kind : String → Bool) (u : DbUser casing) (a : Accounts) :
    List Request :=
  match u.diff secret env stage a with
  | none => []
  | some d =>
    u.grantSends databaseName (d.toGrant.filter kind) ++
      if (u.grant cat env stage (d.toGrant.filter kind) a).1 then
        u.revokeSends databaseName (d.toRevoke.filter kind)
      else []

def updateSends (u : DbUser casing) (a : Accounts) : List Request :=
  let roles := u.updateRolePrivs cat secret env a
  u.updatePrivsSends cat secret env databaseName .roles (· ∈ cat.roles) a ++
    if roles.1 then u.updatePrivsSends cat secret env databaseName .sysPrivs (· ∉ cat.roles) roles.2
    else []

def passwordSends (u : DbUser casing) : List Request := send casing (u.passwordRequest databaseName)

end DbUser

/-- What a loop over users sends, each from where the one before left the accounts. -/
def forEachSends (op : DbUser casing → Accounts → Bool × Accounts)
    (sends : DbUser casing → Accounts → List Request) :
    List (DbUser casing) → Accounts → List Request
  | [], _ => []
  | u :: rest, a => sends u a ++ forEachSends op sends rest (op u a).2

/-- What `UpdateUsers` sends. -/
def updateUsersSends (casing : Casing) (pdbName : String) (userSpecs : List User) (a : Accounts) :
    List Request :=
  let databaseName := casing.toUpper pdbName
  match usersDiff secret env casing userSpecs a with
  | none => []
  | some d =>
    let b := (forEach (fun u => u.create cat env) d.toCreate a).2
    let c := (forEach (fun u => u.update cat secret env) d.toUpdate b).2
    forEachSends (fun u => u.create cat env) (fun u _ => u.createSends databaseName) d.toCreate a ++
      forEachSends (fun u => u.update cat secret env)
        (fun u => u.updateSends cat secret env databaseName) d.toUpdate b ++
      forEachSends (fun u => u.updatePassword env) (fun u _ => u.passwordSends databaseName)
        d.toUpdatePwd c

/-- What `SyncUsers` sends: nothing unless there is a change and the status could be written. -/
def syncUsersSends (sync : SyncEnv) (casing : Casing) (spec : DatabaseSpec) (status : UserStatus)
    (a : Accounts) : List Request :=
  let userSpecs := spec.users.map (userRequest status.userResourceVersions)
  match usersChanged sync.secret sync.changing casing spec.name userSpecs a with
  | none => []
  | some resp =>
    if resp.changed ∧ sync.progressStatus then
      updateUsersSends cat sync.secret sync.updating casing spec.name userSpecs a
    else []

end Repository

end ElCarro.Databases.Users
