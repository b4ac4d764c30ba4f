import ElCarro.Instance.Reconcile

/-! # Reconciles of a Database

A Database is a PDB in the container database of its instance. Its controller
creates the PDB, reports that on the object, and only then notes the name of the
PDB in the status of the instance; a PDB that exists already is not noted.
-/

namespace ElCarro.Databases

open GoTime K8s Api Flow

open Instance.Reconciler (World Outcome Result gone isStopped)

structure Cluster extends World where
  /-- The PDBs of the container database, with their names in upper case. -/
  pdbs : List String

/-- A reconcile has a copy of its Database and one of the instance. -/
structure Session extends Cluster where
  db : Database
  inst : Instance

inductive Call where
  | getDatabase | getDatabaseAgain | getInstance | listPods | getService
  | addFinalizer | preflightStatus | readyStatus | instanceStatus | removeFinalizer
  deriving DecidableEq, Repr

structure Env where
  now : Time
  call : Call → Outcome
  pods : Nat
  databaseContainer : Bool
  /-- Whether the instance is ready, if that can be found out. -/
  instanceReady : Option Bool
  loadBalancerReady : Bool
  createDatabase : Outcome
  deleteDatabase : Outcome
  newUsers : Bool
  syncUsers : Bool

abbrev P := Prog Session Result

variable (env : Env) (name : String)

def reached (c : Call) : Bool := env.call c = .ok

section Writes

def setDatabase (f : Database → Database) : P Unit := modify fun s => { s with db := f s.db }

/-- Write the copy of the Database. -/
def writeDatabase (c : Call) : P Bool := fun s =>
  .next (env.call c = .ok)
    (if (env.call c).served then { s with databases := s.databases.insert name s.db } else s)

/-- `Status().Update` of the instance, with other names. -/
def writeDatabaseNames (names : List String) : P Bool := fun s =>
  let inst := { s.inst with status := { s.inst.status with databaseNames := names } }
  .next (env.call .instanceStatus = .ok)
    (if (env.call .instanceStatus).served then
      { s with stored := inst, resourceVersion := s.resourceVersion + 1, inst }
    else { s with inst })

/-- An update without a finalizer is the end of an object that is deleted. -/
def removeDatabase : P Bool := fun s =>
  .next (reached env .removeFinalizer)
    (if (env.call .removeFinalizer).served then { s with databases := s.databases.erase name }
    else s)

def setReady (status : CondStatus) (reason : Reason) (message : String) (phase : DatabasePhase) :
    P Unit :=
  setDatabase fun db =>
    { db with phase, conditions := upsert env.now .ready status reason message db.conditions }

end Writes

/-- A failed write of the status is only logged, the error is returned anyway. -/
def handlePreflightCheckError (message : String) : P Unit := do
  setReady env .false .createPending message .creating
  let _ ← writeDatabase env name .preflightStatus
  finish .error

/-- Whether the PDB was there already. -/
def newDatabase : P Bool := fun s =>
  let pdb := s.db.specName.toUpper
  let existed : Bool := pdb ∈ s.pdbs
  let t := if (env.createDatabase).served ∧ ¬ existed then { s with pdbs := pdb :: s.pdbs } else s
  if env.createDatabase = .ok then .next existed t else .done .error t

/-- What the checks say against the Database, as far as it goes into its status. -/
def complaint (s : Session) : Option String :=
  if s.db.specError.isSome then s.db.specError
  else if ¬ reached env .getInstance ∨ gone s.inst then
    some ("failed to find instance \"" ++ s.inst.name ++ "\" for database \"" ++ name ++ "\"")
  else if ¬ reached env .listPods then some "failed to find a pod"
  else if env.pods ≠ 1 then some ("expected 1 pod, found " ++ toString env.pods)
  else none

/-- The checks before anything is done about the PDB. -/
def preflight : P Unit := do
  let s ← get
  match complaint env name s with
  | some message => handlePreflightCheckError env name message
  | none => do
    when (¬ env.databaseContainer ∨ env.instanceReady = none) (finish .error)
    when (env.instanceReady = some false)
      (handlePreflightCheckError env name "database instance doesn't appear to be ready yet")
    when (¬ reached env .getService ∨ ¬ env.loadBalancerReady) (finish .error)

def addFinalizer : P Unit := do
  let s ← get
  when (¬ s.db.hasFinalizer) (do
    setDatabase fun db => { db with hasFinalizer := true }
    let ok ← writeDatabase env name .addFinalizer
    when (¬ ok) (finish .error))

/-- The status says that the PDB is created, whether it was created now or before. -/
def report : P Unit := do
  setReady env .true .createComplete "" .ready
  setDatabase fun db => { db with reported := true }
  let ok ← writeDatabase env name .readyStatus
  when (¬ ok) (finish .error)

def noteName : P Unit := do
  let s ← get
  let names := s.inst.status.databaseNames
  let ok ← writeDatabaseNames env
    (if s.db.specName ∈ names then names else names ++ [s.db.specName])
  when (¬ ok) (finish .error)

def reconcileDatabaseCreation : P Unit := do
  when (env.call .getDatabaseAgain = .notFound) (finish .stop)
  when (¬ reached env .getDatabaseAgain) (finish .error)
  preflight env name
  addFinalizer env name
  let alreadyExists ← newDatabase env
  report env name
  if alreadyExists then finish (if env.syncUsers then .stop else .error)
  else do
    when (¬ env.newUsers) (finish .error)
    noteName env

/-- The PDB of a stopped instance cannot be dropped and is left alone. -/
def dropPDB : P Unit := do
  let s ← get
  when (¬ isStopped s.inst) (do
    when (env.deleteDatabase).served
      (modify fun s => { s with pdbs := s.pdbs.filter (· ≠ s.db.specName.toUpper) })
    when (env.deleteDatabase ≠ .ok) (finish .error))

def reconcileDatabaseDeletion : P Unit := do
  when (env.call .getDatabaseAgain = .notFound) (finish .stop)
  when (¬ reached env .getDatabaseAgain) (finish .error)
  let s ← get
  when (¬ reached env .getInstance ∨ gone s.inst) (finish .error)
  when s.db.hasFinalizer (do
    dropPDB env
    let ok ← writeDatabaseNames env (s.inst.status.databaseNames.filter (· ≠ s.db.specName))
    when (¬ ok) (finish .error)
    let ok ← removeDatabase env name
    when (¬ ok) (finish .error))

def reconcileDatabase : P Unit := do
  when (env.call .getDatabase = .notFound) (finish .stop)
  when (¬ reached env .getDatabase) (finish .error)
  let s ← get
  if s.db.deletionTimestamp.isSome then reconcileDatabaseDeletion env name
  else reconcileDatabaseCreation env name

def Cluster.session (c : Cluster) (db : Database) : Session := { c with db := db, inst := c.stored }

/-- A reconcile of a Database that is not there has nothing to do. -/
def Cluster.reconcileDatabase (c : Cluster) : Cluster :=
  match c.databases.lookup name with
  | none => c
  | some db => (Databases.reconcileDatabase env name (c.session db)).state.toCluster

end ElCarro.Databases
