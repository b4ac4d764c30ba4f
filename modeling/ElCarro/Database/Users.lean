import Mathlib.Data.List.Sort
import Mathlib.Data.String.Basic
import ElCarro.Api.Types

/-! # Users of a PDB

The users that a Database asks for are compared with those of the PDB: missing ones
are created, the privileges of the others are granted and revoked, and passwords
are set when the recorded version says so. A statement of the engine can name
several privileges at once.
-/

namespace ElCarro.Databases.Users

open GoTime K8s Api

/-- Upper case and case folding, for letters of any script. -/
structure Casing where
  toUpper : String → String
  toUpper_toUpper : ∀ s, toUpper (toUpper s) = toUpper s
  equalFold : String → String → Bool
  equalFold_self : ∀ s, equalFold s s = true

section Spec

structure GsmSecretRef where
  projectId : String
  secretId : String
  version : String
  deriving DecidableEq, Repr

structure UserSpec where
  name : String
  password : String
  gsmSecretRef : Option GsmSecretRef
  privileges : List String
  deriving DecidableEq, Repr

structure DatabaseSpec where
  name : String
  adminPassword : String
  adminPasswordGsmSecretRef : Option GsmSecretRef
  users : List UserSpec
  deriving DecidableEq, Repr

/-- `sql.Identifier` without an error: there is no double quote to escape. -/
def isIdentifier (id : String) : Bool := '"' ∉ id.toList

/-- The pattern `^[A-Za-z ,_]+$`. -/
def isPrivilege (p : String) : Bool :=
  ¬ p.toList = [] ∧ p.toList.all fun c => c.isAlpha || c = ' ' || c = ',' || c = '_'

def validateUser (u : UserSpec) : Option String :=
  if ¬ isIdentifier u.name then some ("resources/validateSpec: invalid user " ++ u.name)
  else if u.password ≠ "" ∧ ¬ isIdentifier u.password then
    some ("resources/validateSpec: password for user " ++ u.name ++ " is not valid")
  else
    (u.privileges.find? fun p => ¬ isPrivilege p).map fun p =>
      "resources/validateSpec: invalid privilege " ++ p ++ " for user " ++ u.name

/-- What there is to say against a spec, if anything. -/
def validateSpec (spec : DatabaseSpec) : Option String :=
  if spec.adminPassword ≠ "" ∧ spec.adminPasswordGsmSecretRef.isSome then
    some "resources/validateSpec: invalid database admin password spec"
  else match spec.users.find? fun u => u.password ≠ "" ∧ u.gsmSecretRef.isSome with
    | some u => some ("resources/validateSpec: invalid database user password spec for user " ++ u.name)
    | none =>
      if ¬ isIdentifier spec.name then some "resources/validateSpec: pdb name is not valid"
      else if spec.adminPassword ≠ "" ∧ ¬ isIdentifier spec.adminPassword then
        some "resources/validateSpec: admin_password is not valid"
      else spec.users.findSome? validateUser

/-- `gsmSecretStr`, which is also the form of a recorded version. -/
def gsmResourceVersion (ref : GsmSecretRef) : String :=
  "projects/" ++ ref.projectId ++ "/secrets/" ++ ref.secretId ++ "/versions/" ++ ref.version

end Spec

section Statements

/-- The words of a name, which any number of blanks can separate. -/
def words (cs : List Char) : List (List Char) := (cs.splitOn ' ').filter (· ≠ [])

/-- The privileges that a statement names, as the views of the engine spell them. -/
def privilegeNames (privileges : String) : List String :=
  ((privileges.toList.map Char.toUpper).splitOn ',').map fun part =>
    String.ofList ([' '].intercalate (words part))

structure Account where
  password : String
  /-- Rows of `dba_sys_privs` and `dba_role_privs`. -/
  privs : List String
  /-- Neither maintained by the engine nor inherited from the container. -/
  managed : Bool
  deriving DecidableEq, Repr

/-- What the engine knows as a role or as a system privilege. -/
structure Catalog where
  roles : List String
  systemPrivileges : List String

def Catalog.knows (cat : Catalog) (name : String) : Bool :=
  name ∈ cat.roles || name ∈ cat.systemPrivileges

/-- The rows of `dba_users`. -/
structure Accounts where
  names : List String
  account : String → Option Account
  mem_names : ∀ name, name ∈ names ↔ (account name).isSome

def Accounts.set (a : Accounts) (name : String) (acc : Account) : Accounts where
  names := if name ∈ a.names then a.names else name :: a.names
  account := Function.update a.account name (some acc)
  mem_names n := by
    by_cases hn : n = name
    · subst hn
      split <;> simp_all
    · rw [Function.update_of_ne hn, ← a.mem_names n]
      split <;> simp [hn]

def Accounts.privs (a : Accounts) (name : String) : List String :=
  ((a.account name).map (·.privs)).getD []

variable (cat : Catalog)

/-- `create user`, which takes no empty password. -/
def createStatement (user password : String) (a : Accounts) : Option Accounts :=
  if isIdentifier user ∧ isIdentifier password ∧ password ≠ "" ∧ (a.account user).isNone then
    some (a.set user ⟨password, [], true⟩)
  else none

def alterStatement (user password : String) (a : Accounts) : Option Accounts :=
  match a.account user with
  | none => none
  | some acc =>
    if isIdentifier user ∧ isIdentifier password ∧ password ≠ "" then
      some (a.set user { acc with password })
    else none

def grantStatement (user privileges : String) (a : Accounts) : Option Accounts :=
  match a.account user with
  | none => none
  | some acc =>
    if isPrivilege privileges ∧ isIdentifier user ∧ (privilegeNames privileges).all cat.knows then
      some (a.set user { acc with privs := acc.privs ∪ privilegeNames privileges })
    else none

/-- Only what was granted can be revoked. -/
def revokeStatement (user privileges : String) (a : Accounts) : Option Accounts :=
  match a.account user with
  | none => none
  | some acc =>
    if isPrivilege privileges ∧ isIdentifier user ∧
        (privilegeNames privileges).all (· ∈ acc.privs) then
      some (a.set user
        { acc with privs := acc.privs.filter (· ∉ privilegeNames privileges) })
    else none

/-- The statements of one call, up to the first that fails. -/
def runEach (statement : String → Accounts → Option Accounts) :
    List String → Accounts → Bool × Accounts
  | [], a => (true, a)
  | p :: rest, a =>
    match statement p a with
    | none => (false, a)
    | some b => runEach statement rest b

end Statements

section Requests

structure SecretRequest extends GsmSecretRef where
  lastVersion : String

/-- A user as the controller asks for it. -/
structure User where
  name : String
  password : String
  privileges : List String
  passwordGsmSecretRef : Option SecretRequest
  lastPassword : String

/-- The last versions come from the status; a plaintext password is its own version. -/
def userRequest (versions : StrMap) (u : UserSpec) : User where
  name := u.name
  password := u.password
  privileges := u.privileges
  passwordGsmSecretRef := u.gsmSecretRef.map fun ref => ⟨ref, valueAt versions u.name⟩
  lastPassword := if u.password ≠ "" then valueAt versions u.name else ""

/-- What the status notes for a user, if it has a password to note. -/
def recordedVersion (u : UserSpec) : Option String :=
  match u.gsmSecretRef with
  | some ref => some (gsmResourceVersion ref)
  | none => if u.password ≠ "" then some u.password else none

end Requests

/-- A user of the repository, under its name in upper case. -/
structure DbUser (casing : Casing) where
  userName : String
  upper : casing.toUpper userName = userName
  specPrivs : List String
  gsmSecNewVer : String
  gsmSecCurVer : String
  newPassword : String
  curPassword : String

inductive Stage where
  | check | roles | sysPrivs
  deriving DecidableEq, Repr

/-- The calls to the database and to the secret manager. -/
inductive Call where
  | listUsers | listRoles
  | readPrivs (stage : Stage) (user : String)
  | accessSecret (stage : Stage) (version : String)
  | createUser (user : String)
  | grant (stage : Stage) (user : String) | revoke (stage : Stage) (user : String)
  | alterUser (user : String)
  deriving DecidableEq, Repr

/-- Which calls succeed. -/
structure Env where
  call : Call → Bool

variable {casing : Casing} (cat : Catalog) (secret : String → String) (env : Env)

section Repository

/-- Object privileges are not supported and left out. -/
def isObjectPrivilege (p : String) : Bool := " ON ".toList <:+: p.toList

def newUser (casing : Casing) (specUser : User) : DbUser casing where
  userName := casing.toUpper specUser.name
  upper := casing.toUpper_toUpper _
  specPrivs := (specUser.privileges.map casing.toUpper).filter fun p => ¬ isObjectPrivilege p
  gsmSecNewVer :=
    match specUser.passwordGsmSecretRef with
    | none => ""
    | some ref => gsmResourceVersion ref.toGsmSecretRef
  gsmSecCurVer := (specUser.passwordGsmSecretRef.map (·.lastVersion)).getD ""
  newPassword := specUser.password
  curPassword := specUser.lastPassword

/-- The map by names: of two users with one name the later one counts. -/
def nameToUser (casing : Casing) (userSpecs : List User) (name : String) : Option (DbUser casing) :=
  (userSpecs.reverse.find? fun us => casing.toUpper us.name = name).map (newUser casing)

/-- The elements of a set of strings, in order. -/
def elements (l : List String) : List String := l.dedup.insertionSort (· ≤ ·)

/-- `compare`: left without right, both, and right without left. -/
def compare (left right : List String) : List String × List String × List String :=
  (elements (left.filter (· ∉ right)), elements (left.filter (· ∈ right)),
    elements (right.filter (· ∉ left)))

def pdbAdmin : String := "GPDB_ADMIN"

def isListed (a : Accounts) (name : String) : Bool :=
  (a.account name).any (·.managed) && name ≠ pdbAdmin

def envUserNames (a : Accounts) : List String := a.names.filter (isListed a)

namespace DbUser

/-- The version differs from the recorded one, or the latest one is asked for. -/
def toUpdateGsmPwd (u : DbUser casing) : Bool :=
  (u.gsmSecNewVer ≠ "" && ¬ casing.equalFold u.gsmSecNewVer u.gsmSecCurVer) ||
    "latest".toList <:+ u.gsmSecNewVer.toList

def toUpdatePlaintextPwd (u : DbUser casing) : Bool :=
  u.curPassword ≠ "" && u.curPassword ≠ u.newPassword

structure Diff (casing : Casing) where
  toGrant : List String
  toRevoke : List String
  toUpdatePwd : Bool
  /-- The user, with the password that was read from the secret. -/
  user : DbUser casing

/-- `user.diff`, with the privileges that the engine lists for the user. -/
def diff (stage : Stage) (u : DbUser casing) (a : Accounts) : Option (Diff casing) :=
  let privs := compare u.specPrivs (a.privs u.userName)
  if ¬ env.call (.readPrivs stage u.userName) then none
  else if u.toUpdateGsmPwd then
    if env.call (.accessSecret stage u.gsmSecNewVer) then
      some ⟨privs.1, privs.2.2, true, { u with newPassword := secret u.gsmSecNewVer }⟩
    else none
  else some ⟨privs.1, privs.2.2, u.toUpdatePlaintextPwd, u⟩

def create (u : DbUser casing) (a : Accounts) : Bool × Accounts :=
  if ¬ env.call (.createUser u.userName) then (false, a)
  else
    match createStatement (casing.toUpper u.userName) u.newPassword a with
    | none => (false, a)
    | some b => runEach (grantStatement cat (casing.toUpper u.userName)) u.specPrivs b

def grant (stage : Stage) (u : DbUser casing) (toGrant : List String) (a : Accounts) :
    Bool × Accounts :=
  if toGrant = [] then (true, a)
  else if ¬ env.call (.grant stage u.userName) then (false, a)
  else runEach (grantStatement cat (casing.toUpper u.userName)) toGrant a

def revoke (stage : Stage) (u : DbUser casing) (toRevoke : List String) (a : Accounts) :
    Bool × Accounts :=
  if toRevoke = [] then (true, a)
  else if ¬ env.call (.revoke stage u.userName) then (false, a)
  else runEach (revokeStatement (casing.toUpper u.userName)) toRevoke a

/-- Grant and revoke the part of the difference that is of one kind. -/
def updatePrivs (stage : Stage) (kind : String → Bool) (u : DbUser casing) (a : Accounts) :
    Bool × Accounts :=
  match u.diff secret env stage a with
  | none => (false, a)
  | some d =>
    match u.grant cat env stage (d.toGrant.filter kind) a with
    | (false, b) => (false, b)
    | (true, b) => u.revoke env stage (d.toRevoke.filter kind) b

def updateRolePrivs (u : DbUser casing) (a : Accounts) : Bool × Accounts :=
  u.updatePrivs cat secret env .roles (· ∈ cat.roles) a

def updateSysPrivs (u : DbUser casing) (a : Accounts) : Bool × Accounts :=
  u.updatePrivs cat secret env .sysPrivs (· ∉ cat.roles) a

/-- Roles come first, since some of them bring privileges with them. -/
def update (u : DbUser casing) (a : Accounts) : Bool × Accounts :=
  match u.updateRolePrivs cat secret env a with
  | (false, b) => (false, b)
  | (true, b) => u.updateSysPrivs cat secret env b

def updatePassword (u : DbUser casing) (a : Accounts) : Bool × Accounts :=
  if ¬ env.call (.alterUser u.userName) then (false, a)
  else
    match alterStatement (casing.toUpper u.userName) u.newPassword a with
    | none => (false, a)
    | some b => (true, b)

end DbUser

structure UsersDiff (casing : Casing) where
  toCreate : List (DbUser casing)
  toUpdate : List (DbUser casing)
  toDelete : List String
  toUpdatePwd : List (DbUser casing)

/-- One user that cannot be read fails all of them. -/
def diffEach (a : Accounts) : List (DbUser casing) → Option (List (DbUser.Diff casing))
  | [] => some []
  | u :: rest =>
    match u.diff secret env .check a, diffEach a rest with
    | some d, some ds => some (d :: ds)
    | _, _ => none

/-- `users.diff`. -/
def usersDiff (casing : Casing) (userSpecs : List User) (a : Accounts) :
    Option (UsersDiff casing) :=
  if ¬ env.call .listUsers ∨ ¬ env.call .listRoles then none
  else
    let sets := compare (userSpecs.map fun us => casing.toUpper us.name) (envUserNames a)
    let toCheck := sets.2.1.filterMap (nameToUser casing userSpecs)
    if ¬ sets.2.2.all fun name => env.call (.readPrivs .check name) then none
    else
      (diffEach secret env a toCheck).map fun diffs =>
        { toCreate := sets.1.filterMap (nameToUser casing userSpecs)
          toUpdate := (diffs.filter fun d => d.toGrant ≠ [] ∨ d.toRevoke ≠ []).map (·.user)
          toDelete := sets.2.2
          toUpdatePwd := (diffs.filter (·.toUpdatePwd)).map (·.user) }

end Repository

section Controller

/-- Go on after an error, and remember it. -/
def forEach (op : DbUser casing → Accounts → Bool × Accounts) :
    List (DbUser casing) → Accounts → Bool × Accounts
  | [], a => (true, a)
  | u :: rest, a =>
    let (ok, b) := op u a
    let (oks, c) := forEach op rest b
    (ok && oks, c)

/-- `UpdateUsers`: whether it returns without an error, and the accounts afterwards. -/
def updateUsers (casing : Casing) (userSpecs : List User) (a : Accounts) : Bool × Accounts :=
  match usersDiff secret env casing userSpecs a with
  | none => (false, a)
  | some d =>
    let (created, b) := forEach (fun u => u.create cat env) d.toCreate a
    let (updated, c) := forEach (fun u => u.update cat secret env) d.toUpdate b
    let (altered, e) := forEach (fun u => u.updatePassword env) d.toUpdatePwd c
    (created && updated && altered, e)

/-- What the controller would do but does not: a user to drop, or one without a password. -/
inductive Suppressed where
  | delete (userName statement : String)
  | create (userName : String)
  deriving DecidableEq, Repr

def dropStatement (casing : Casing) (databaseName userName : String) : String :=
  "alter session set container=\"" ++ casing.toUpper databaseName ++ "\"; DROP USER \"" ++
    casing.toUpper userName ++ "\" CASCADE;"

structure UsersChangedResponse where
  changed : Bool
  suppressed : List Suppressed
  deriving DecidableEq, Repr

def usersChanged (casing : Casing) (pdbName : String) (userSpecs : List User) (a : Accounts) :
    Option UsersChangedResponse :=
  (usersDiff secret env casing userSpecs a).map fun d =>
    { changed := d.toCreate ≠ [] || d.toUpdate ≠ [] || d.toUpdatePwd ≠ []
      suppressed :=
        (d.toDelete.map fun name => .delete name (dropStatement casing pdbName name)) ++
          (d.toCreate.filter (·.newPassword = "")).map fun u => .create u.userName }

structure UserStatus where
  userResourceVersions : StrMap
  userNames : List String
  conditions : List Condition

/-- The versions that the status gets: the one of the admin stays, those of the users are new. -/
def recordedVersions (spec : DatabaseSpec) (versions : StrMap) : StrMap :=
  spec.users.foldl (fun m u => ((recordedVersion u).map fun v => m.insert u.name v).getD m)
    (((versions.lookup pdbAdmin).map fun v => (∅ : StrMap).insert pdbAdmin v).getD ∅)

def Suppressed.message : Suppressed → String
  | .delete userName statement =>
    "User \"" ++ userName ++ "\" not defined in database spec, supposed to be deleted. suppressed SQL \""
      ++ statement ++ "\". Fix by deleting the user in DB or updating DB spec to include the user"
  | .create userName =>
    "User \"" ++ userName ++ "\" cannot be created, password is not provided. " ++
      "Fix by creating the user in DB or updating DB spec to include password"

/-- What one run of `SyncUsers` meets; the secrets do not change while it runs. -/
structure SyncEnv where
  now : Time
  secret : String → String
  changing : Env
  updating : Env
  progressStatus : Bool
  finalStatus : Bool

variable (sync : SyncEnv)

/-- The status at the end, with every version, whatever was done about the users. -/
def syncedStatus (spec : DatabaseSpec) (suppressed : List Suppressed) (status : UserStatus) :
    UserStatus where
  userResourceVersions := recordedVersions spec status.userResourceVersions
  userNames := (spec.users.take 3).map (·.name) ++ if 3 < spec.users.length then ["..."] else []
  conditions :=
    if suppressed = [] then upsert sync.now .userReady .true .syncComplete "" status.conditions
    else
      upsert sync.now .userReady .false .userOutOfSync
        (".".intercalate (suppressed.map Suppressed.message)) status.conditions

/-- `SyncUsers`: whether it returns without an error, the accounts and the status. -/
def syncUsers (casing : Casing) (spec : DatabaseSpec) (status : UserStatus) (a : Accounts) :
    Bool × Accounts × UserStatus :=
  let userSpecs := spec.users.map (userRequest status.userResourceVersions)
  match usersChanged sync.secret sync.changing casing spec.name userSpecs a with
  | none => (false, a, status)
  | some resp =>
    if ¬ resp.changed then (sync.finalStatus, a, syncedStatus sync spec resp.suppressed status)
    else
      let progress := { status with
        conditions := upsert sync.now .userReady .false .syncInProgress "" status.conditions }
      if ¬ sync.progressStatus then (false, a, progress)
      else
        match updateUsers cat sync.secret sync.updating casing userSpecs a with
        | (false, b) => (false, b, progress)
        | (true, b) => (sync.finalStatus, b, syncedStatus sync spec resp.suppressed progress)

end Controller

end ElCarro.Databases.Users
