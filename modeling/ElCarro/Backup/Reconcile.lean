import ElCarro.Backup.Location
import ElCarro.Instance.Reconcile

/-! # The controller of Backups

A Backup waits for its instance, is given an ID, is started and is polled until it
is done; its ID then becomes the backup ID in the status of the instance. A Backup
can also ask to verify one that exists, and its data is deleted before the object.
-/

namespace ElCarro.Backups

open GoTime K8s Api Flow
open Instance (diskSpecs snapshotName fullPVCName)
open Instance.Reconciler (World Outcome Result SnapshotStatus VolumeSnapshot readyCond gone)

inductive Mode where
  | unset | verifyExists
  deriving DecidableEq, Repr

inductive Subtype where
  | unset | wholeInstance | database | tablespace | datafile
  deriving DecidableEq, Repr

inductive Phase where
  | unset | pending | inProgress | failed | succeeded | deleting
  deriving DecidableEq, Repr

/-- The Ready condition, the only one of a Backup; an invalid spec leaves it without a reason. -/
structure ReadyCond where
  status : CondStatus
  reason : Option Reason
  message : String
  lastTransitionTime : Time
  deriving DecidableEq, Repr

/-- `Upsert` of the Ready condition. -/
def upsertReady (now : Time) (status : CondStatus) (reason : Option Reason) (message : String) :
    Option ReadyCond → ReadyCond
  | none => ⟨status, reason, message, rfc3339Copy now⟩
  | some cond =>
    if cond.status = status ∧ cond.reason = reason then { cond with message }
    else ⟨status, reason, message, rfc3339Copy now⟩

structure Status where
  phase : Phase
  ready : Option ReadyCond
  backupID : String
  backupTime : String
  startTime : Option Time
  duration : Option Duration
  gcsPath : String
  deriving DecidableEq

structure Backup where
  ns : String
  name : String
  uid : String
  labels : Option StrMap
  annotations : Option StrMap
  deletionTimestamp : Option Time
  hasFinalizer : Bool
  spec : PhysicalBackup.BackupSpec
  instName : String
  mode : Mode
  subtype : Subtype
  volumeSnapshotClass : String
  status : Status
  deriving DecidableEq

/-- The Backup as far as its storage goes. -/
def Backup.storage (backup : Backup) : PhysicalBackup.Backup :=
  ⟨backup.name, backup.spec, backup.status.backupTime⟩

/-- The reason of the Ready condition, which selects what a reconcile does. -/
def Backup.state (backup : Backup) : Option Reason := backup.status.ready.bind (·.reason)

/-- A reconcile with its own copies of the Backup and of the instance. -/
structure Session where
  /-- The instance and its objects. -/
  world : World
  /-- The Backup as the server has it. -/
  stored : Option Backup
  resourceVersion : Nat
  mem : Backup
  memVersion : Nat

inductive Call where
  | getBackup | getInstance | update | backupStatus | instanceStatus
  | snapshot (name : String)
  deriving DecidableEq, Repr

/-- What `GetLROOperation` comes back with. -/
structure Operation where
  done : Bool
  error : Option String
  deriving DecidableEq, Repr

structure Metadata where
  /-- Written as RFC 3339; a zero time is left out. -/
  timestamp : Option String
  incarnation : String
  parentIncarnation : String
  scn : String
  databaseImage : String
  deriving DecidableEq, Repr

/-- What one reconcile meets outside of the Backup and the instance. -/
structure Env where
  now : Time
  /-- The date and the nanosecond of an ID, and the time as `BackupTime` has it. -/
  date : String
  nanosecond : Nat
  timeText : String
  call : Call → Outcome
  /-- What the error of a failed call says. -/
  errorText : Call → String
  /-- The object as `%v` prints it. -/
  printed : String
  /-- The instance of the Backup, if it is another one than that of the world. -/
  other : Option Instance
  config : Except ApiError (Option Config)
  /-- The VolumeSnapshots of the namespace in the order in which they are listed. -/
  volSnaps : Except String (List (String × Option SnapshotStatus))
  physicalBackup : Except ApiError Unit
  operation : Except String Operation
  metadata : Option (Option Metadata)
  physicalDelete : Bool
  verify : Option (List String)

abbrev P := Prog Session Result

def requeueInterval : Duration := second

def statusCheckInterval : Duration := 60 * second

def verifyExistsInterval : Duration := 300 * second

def msgSep : String := "; "

variable (env : Env)

def reached (c : Call) : Bool := env.call c = .ok

section Calls

def setMem (f : Backup → Backup) : P Unit := modify fun s => { s with mem := f s.mem }

def setStatus (f : Status → Status) : P Unit :=
  setMem fun backup => { backup with status := f backup.status }

def setReady (status : CondStatus) (reason : Option Reason) (message : String) : P Unit :=
  setStatus fun st => { st with ready := some (upsertReady env.now status reason message st.ready) }

/-- An object that is being deleted is gone with its last finalizer. -/
def Session.store (s : Session) (backup : Backup) : Session :=
  if s.stored = some backup then s
  else
    { s with
      stored := if backup.deletionTimestamp.isSome ∧ ¬ backup.hasFinalizer then none else some backup
      resourceVersion := s.resourceVersion + 1 }

/-- Write an object made from the stored one and the copy; the answer replaces the copy. -/
def write (object : Backup → Backup → Backup) (c : Call) : P Bool := fun s =>
  match s.stored with
  | none => .next false s
  | some stored =>
    let t := s.store (object stored s.mem)
    if s.memVersion ≠ s.resourceVersion then .next false s
    else match env.call c with
      | .ok => .next true { t with mem := object stored s.mem, memVersion := t.resourceVersion }
      | .lost => .next false t
      | _ => .next false s

/-- `UpdateStatus` of the Backup, which leaves everything but the status alone. -/
def updateStatus : P Bool :=
  write env (fun stored mem => { stored with status := mem.status }) .backupStatus

/-- `Update`, which leaves the status alone. -/
def update : P Bool := write env (fun stored mem => { mem with status := stored.status }) .update

/-- Leave with the error of a call, or with the result if there is none. -/
def finishWith (r : Result) (ok : Bool) : P Unit := finish (if ok then r else .error)

/-- The instance of the world goes by this name. -/
def Names (w : World) (ns name : String) : Prop := w.stored.ns = ns ∧ w.stored.name = name

instance (w : World) (ns name : String) : Decidable (Names w ns name) :=
  inferInstanceAs (Decidable (_ ∧ _))

/-- `GetInstance` of the instance that the Backup names. -/
def getInstance : P (Option Instance) := do
  let s ← get
  if ¬ reached env .getInstance then pure none
  else if Names s.world s.mem.ns s.mem.instName then
    pure (if gone s.world.stored then none else some s.world.stored)
  else pure (env.other.map fun inst => { inst with ns := s.mem.ns, name := s.mem.instName })

/-- `UpdateStatus` of the instance with a new backup ID. A write by somebody else since the
instance was read shows as a conflict. -/
def updateInstanceStatus (inst : Instance) (backupID : String) : P Bool := fun s =>
  .next (env.call .instanceStatus = .ok)
    (if (env.call .instanceStatus).served ∧ Names s.world inst.ns inst.name then
      { s with world := s.world.edit { s.world.stored with
        status := { s.world.stored.status with backupID } } }
    else s)

end Calls

section OracleBackup

/-- `strings.Contains`. -/
def Contains (s sub : String) : Prop := sub.toList <:+: s.toList

instance (s sub : String) : Decidable (Contains s sub) := inferInstanceAs (Decidable (_ <:+: _))

/-- How far a backup is: `err` can come with `done` or without. -/
structure Progress where
  done : Bool
  err : Option String
  deriving DecidableEq, Repr

def findVolumeSnapshotClassName (volumeSnapshotClass : String) (config : Option Config) :
    Option String :=
  let configured := (config.map (·.volumeSnapshotClass)).getD ""
  let platform := (config.map (·.platform)).getD ""
  if volumeSnapshotClass ≠ "" then some volumeSnapshotClass
  else if configured ≠ "" then some configured
  else if platform = "" ∨ platform = "GCP" then some "csi-gce-pd-snapshot-class"
  else if platform = "BareMetal" then some "csi-trident-snapshot-class"
  else if platform = "Minikube" ∨ platform = "Kind" then some "csi-hostpath-snapclass"
  else none

/-- `SnapshotDisks` up to the first disk whose snapshot fails. -/
def snapshotDisks (backupID instName : String) : List DiskSpec → P Bool
  | [] => pure true
  | disk :: rest => do
    let name := snapshotName backupID disk.name
    let pvc := fullPVCName instName disk.name
    when (env.call (.snapshot name)).served (modify fun s =>
      if s.mem.ns ≠ s.world.stored.ns then s
      else
        let old := (s.world.snapshots.lookup name).getD (.new pvc)
        { s with world := { s.world with
          snapshots := s.world.snapshots.insert name { old with pvc := pvc } } })
    if reached env (.snapshot name) then snapshotDisks backupID instName rest else pure false

/-- `snapshotBackup.create`. -/
def createSnapshots (inst : Instance) : P Bool := do
  let s ← get
  match env.config with
  | .error _ => pure false
  | .ok config =>
    if findVolumeSnapshotClassName s.mem.volumeSnapshotClass config = none then pure false
    else snapshotDisks env s.mem.status.backupID inst.name (diskSpecs inst config)

/-- `physicalBackup.create`: an operation that exists already is as good as a new one. -/
def createPhysical : P Bool :=
  pure (env.physicalBackup = .ok () ∨ env.physicalBackup = .error .alreadyExists)

def create (inst : Instance) : P Bool := do
  let s ← get
  if s.mem.spec.type = .snapshot then createSnapshots env inst else createPhysical env

/-- The loop of `snapshotBackup.status`; without `readyToUse` it dereferences a nil pointer. -/
def pollSnapshots (ns : String) : List (String × Option SnapshotStatus) → Option Progress
  | [] => some ⟨true, none⟩
  | (_, none) :: _ => some ⟨false, none⟩
  | (name, some ⟨some message, _⟩) :: _ =>
    some ⟨true, some ("volumeSnapshot " ++ ns ++ "/" ++ name ++ " failed with: " ++ message)⟩
  | (_, some ⟨none, none⟩) :: _ => none
  | (_, some ⟨none, some false⟩) :: _ => some ⟨false, none⟩
  | (_, some ⟨none, some true⟩) :: rest => pollSnapshots ns rest

/-- `snapshotBackup.status`. What `Add` returns is dropped, so that the selector stays empty and
the list has every snapshot of the namespace. -/
def pollSnapshotBackup (backup : Backup) : Option Progress :=
  match env.volSnaps with
  | .error err => some ⟨false, some err⟩
  | .ok [] => some ⟨false, some "no volume snapshots found"⟩
  | .ok snaps => pollSnapshots backup.ns snaps

/-- `physicalBackup.status`; that the operation cannot be deleted is only logged. -/
def pollPhysicalBackup : Option Progress :=
  match env.operation with
  | .error err => some ⟨false, some err⟩
  | .ok op => if op.done then some ⟨true, op.error⟩ else some ⟨false, none⟩

def poll (backup : Backup) : Option Progress :=
  if backup.spec.type = .snapshot then pollSnapshotBackup env backup else pollPhysicalBackup env

/-- Metadata of a backup that is done; a snapshot has none. -/
def fetchMetadata (backup : Backup) : Option (Option Metadata) :=
  if backup.spec.type = .snapshot then some none else env.metadata

def generateID (backup : Backup) : String :=
  let kind := if backup.spec.type = .snapshot then "snap" else "phys"
  backup.instName ++ "-" ++ env.date ++ "-" ++ kind ++ "-" ++ toString env.nanosecond

end OracleBackup

section Reconcile

/-- `addBackupMetadata` writes what is not empty into the labels and annotations. -/
def addBackupMetadata (metadata : Option Metadata) : P Bool :=
  match metadata with
  | none => pure true
  | some m => do
    let add := fun (key value : String) (map : StrMap) => if value = "" then map else map.insert key value
    setMem fun backup =>
      { backup with
        labels := some (add parentIncarnationLabel m.parentIncarnation
          (add incarnationLabel m.incarnation (backup.labels.getD ∅)))
        annotations := some (add databaseImageAnnotation m.databaseImage
          (add scnAnnotation m.scn (add timestampAnnotation (m.timestamp.getD "")
            (backup.annotations.getD ∅)))) }
    update env

def Phase.of : Option Reason → Phase
  | some .backupPending => .pending
  | some .backupInProgress => .inProgress
  | some .backupFailed => .failed
  | some .backupReady => .succeeded
  | _ => .unset

/-- `updateBackupStatus`: the ID of a Backup that is ready goes to its instance. -/
def updateBackupStatus (inst : Instance) : P Bool := do
  setMem fun backup =>
    { backup with status := { backup.status with phase := Phase.of backup.state } }
  let s ← get
  let ok ← updateStatus env
  if ok ∧ s.mem.state = some .backupReady then updateInstanceStatus env inst s.mem.status.backupID
  else pure ok

def specErrMsgs (backup : Backup) : List String :=
  (if backup.spec.type ≠ .snapshot ∧ backup.spec.type ≠ .physical then
    ["backup does not support type \"" ++ PhysicalBackup.typeText backup.spec.type ++ "\""] else []) ++
  (if backup.spec.type = .snapshot ∧ backup.subtype ≠ .unset ∧ backup.subtype ≠ .wholeInstance then
    [PhysicalBackup.typeText backup.spec.type ++ " backup only support .spec.subtype 'Instance'"]
    else []) ++
  (if backup.instName = "" then
    ["spec.Instance is not set in the backup request: " ++ env.printed] else [])

/-- `ValidateBackupSpec` keeps the reason of the condition that it notes the errors in. -/
def validateBackupSpec : P Bool := do
  let s ← get
  if specErrMsgs env s.mem = [] then pure true
  else do
    setReady env .unknown s.mem.state (msgSep.intercalate (specErrMsgs env s.mem))
    pure false

def instReady : P (Except String Instance) := do
  match ← getInstance env with
  | none => pure (.error ("error finding instance - " ++ env.errorText .getInstance))
  | some inst =>
    if conditionStatusEquals (readyCond inst) .true then pure (.ok inst)
    else pure (.error "instance is not in a ready state")

/-- Set condition and phase, and leave with the write of the status. -/
def leave (status : CondStatus) (reason : Reason) (phase : Phase) (message : String) (r : Result) :
    P Unit := do
  setReady env status (some reason) message
  setStatus fun st => { st with phase }
  finishWith r (← updateStatus env)

def startBackup : P Unit := do
  match ← instReady env with
  | .error err => leave env .false .backupFailed .failed ("instance not ready: " ++ err) .stop
  | .ok inst => do
    let s ← get
    let st := s.mem.status
    when (st.backupID = "" ∨ st.backupTime = "" ∨ st.startTime = none) (do
      setStatus fun st =>
        { st with
          backupID := generateID env s.mem
          backupTime := env.timeText
          startTime := some env.now }
      finishWith (.requeueAfter requeueInterval) (← updateBackupStatus env inst))
    let metadata : Metadata :=
      { timestamp := none
        incarnation := inst.status.currentDatabaseIncarnation
        parentIncarnation := inst.status.lastDatabaseIncarnation
        scn := ""
        databaseImage := valueAt (inst.status.activeImages.getD ∅) "service" }
    let added ← addBackupMetadata env (some metadata)
    when (¬ added) (finish .error)
    let created ← create env inst
    when (¬ created) (finish .error)
    setReady env .false (some .backupInProgress) "Starting to create a backup."
    finishWith (.requeueAfter requeueInterval) (← updateBackupStatus env inst)

/-- The end of a backup that was taken. -/
def completeBackup (inst : Instance) : P Unit := do
  let s ← get
  match fetchMetadata env s.mem with
  | none => finish .error
  | some metadata => do
    let added ← addBackupMetadata env metadata
    when (¬ added) (finish .error)
    setReady env .true (some .backupReady) ""
    let s ← get
    -- a start time that is missing is a nil pointer
    match s.mem.status.startTime with
    | none => finish .error
    | some startTime => do
      setStatus fun st =>
        { st with
          duration := some (sub env.now startTime)
          gcsPath := PhysicalBackup.statusGcsPath s.mem.storage }
      finishWith .stop (← updateBackupStatus env inst)

def awaitBackup : P Unit := do
  match ← getInstance env with
  | none => finish .error
  | some inst => do
    let s ← get
    match poll env s.mem with
    | none => finish .error
    | some ⟨done, err⟩ =>
      if err.any fun err => Contains err "code = NotFound" then do
        setReady env .false (some .backupFailed) "Backup interrupted"
        finishWith .stop (← updateBackupStatus env inst)
      else if done then
        match err with
        | none => completeBackup env inst
        | some err => do
          setReady env .false (some .backupFailed) err
          finishWith .stop (← updateBackupStatus env inst)
      else finish (.requeueAfter statusCheckInterval)

def reconcileBackupCreation : P Unit := do
  let valid ← validateBackupSpec env
  when (¬ valid) (do finishWith .stop (← updateStatus env))
  let s ← get
  match s.mem.state with
  | none =>
    leave env .false .backupPending .pending "Waiting for the instance to be ready."
      (.requeueAfter requeueInterval)
  | some .backupPending => startBackup env
  | some .backupInProgress => awaitBackup env
  | some .backupReady => do
    when (¬ s.mem.hasFinalizer) (do
      setMem fun backup => { backup with hasFinalizer := true }
      finishWith .stop (← update env))
    finish .stop
  | _ => finish .stop

/-- Leave with the finalizer taken away. -/
def removeFinalizer : P Unit := do
  setMem fun backup => { backup with hasFinalizer := false }
  finishWith .stop (← update env)

def reconcileBackupDeletion : P Unit := do
  let s ← get
  when (¬ s.mem.hasFinalizer) (finish .stop)
  when (s.mem.status.phase ≠ .deleting)
    (leave env .false .backupDeleting .deleting "Backup delete in progress." .stop)
  match ← getInstance env with
  | none =>
    if env.call .getInstance = .ok ∨ env.call .getInstance = .notFound then removeFinalizer env
    else finish .error
  | some _ => do
    when (s.mem.spec.type ≠ .snapshot ∧ ¬ env.physicalDelete) (finish .error)
    removeFinalizer env

def reconcileVerifyExists : P Unit := do
  let s ← get
  match PhysicalBackup.verifyRequest s.mem.storage with
  | .error errMsgs =>
    leave env .false .notSupported .failed (msgSep.intercalate errMsgs) .stop
  | .ok _ => do
    match ← instReady env with
    | .error _ => finish (.requeueAfter requeueInterval)
    | .ok _ =>
      match env.verify with
      | none => finish .requeue
      | some [] =>
        leave env .true .backupReady .succeeded "verified the existence of a physical backup"
          (.requeueAfter verifyExistsInterval)
      | some errMsgs =>
        leave env .false .backupFailed .failed
          ("Failed to verify the existence of a physical backup: " ++ msgSep.intercalate errMsgs)
          (.requeueAfter verifyExistsInterval)

def body : P Unit := do
  let s ← get
  if s.mem.mode = .verifyExists then reconcileVerifyExists env
  else if s.mem.deletionTimestamp.isSome then reconcileBackupDeletion env
  else reconcileBackupCreation env

end Reconcile

end ElCarro.Backups
