import ElCarro.Lib.Flow
import ElCarro.Instance.SnapshotRestore

/-! # What a reconcile of an instance works on

The API server stores the instance, its StatefulSet, claims and snapshots. A
reconcile reads the instance once and works on its own copy, which a write by
somebody else makes stale. The environment answers every call; a write can also
be served although its caller sees an error.
-/

namespace ElCarro.Instance.Reconciler

open GoTime K8s Api Flow

structure SnapshotStatus where
  error : Option String
  readyToUse : Option Bool
  deriving DecidableEq, Repr

structure VolumeSnapshot where
  pvc : String
  status : Option SnapshotStatus
  /-- Whether a status has said so far that the snapshot is ready to use. -/
  reported : Bool
  honest : ∀ st ∈ status, st.readyToUse = some true → reported = true
  deriving DecidableEq

def VolumeSnapshot.new (pvc : String) : VolumeSnapshot := ⟨pvc, none, false, by simp⟩

/-- The part of the reconciler that acts on a StatefulSet or a claim. -/
inductive Path where
  | main | resize | patching | restore | recovery
  deriving DecidableEq, Repr

/-- The step that rebuilds an instance from snapshots, for a restore or after patching. -/
def Path.Rebuilds (p : Path) : Prop := p = .restore ∨ p = .recovery

instance (p : Path) : Decidable p.Rebuilds := inferInstanceAs (Decidable (_ ∨ _))

/-- What a reconcile did or saw, as far as the order of these things matters. -/
inductive Act where
  | beginBackup (backupID : String) (disks : List DiskSpec)
  | takeSnapshot (name : String)
  | seeReady (name : String)
  /-- A StatefulSet is created or updated, with the active images of that moment. -/
  | applySts (path : Path) (created : Bool) (sts : StatefulSet) (active : StrMap)
  | deleteSts (path : Path)
  /-- A claim is deleted, with the snapshot that the backup ID names for its disk. -/
  | deletePvc (path : Path) (pvc : String) (snapshot : Option VolumeSnapshot)
  deriving DecidableEq

/-- A restore that was launched, by the type of its backup. -/
structure RestoreOp where
  backupType : BackupType
  /-- `LastRestoreTime` at the launch, which names the operation. -/
  restoreTime : Option Time
  finished : Bool
  restores : backupType = .snapshot ∨ backupType = .physical
  deriving DecidableEq

def RestoreOp.snapshot (restoreTime : Option Time) : RestoreOp :=
  ⟨.snapshot, restoreTime, false, .inl rfl⟩

def RestoreOp.physical (restoreTime : Option Time) (finished : Bool) : RestoreOp :=
  ⟨.physical, restoreTime, finished, .inr rfl⟩

structure World where
  stored : Instance
  resourceVersion : Nat
  sts : Option StatefulSet
  stsDeleting : Bool
  pvcs : List String
  snapshots : Finmap fun _ : String => VolumeSnapshot
  /-- Images and replicas of the monitoring deployment. -/
  monitoring : Option (StrMap × Nat)
  /-- Newest first. -/
  acts : List Act
  launches : List RestoreOp
  /-- The Databases of the instance, by the name of the object. -/
  databases : Finmap fun _ : String => Database

structure Session extends World where
  mem : Instance
  memVersion : Nat

inductive Result where
  | stop
  | requeue
  | requeueAfter (d : Duration)
  | error
  deriving DecidableEq, Repr

inductive Outcome where
  | ok | notFound | conflict | failed
  /-- The server served the call, but the caller sees an error. -/
  | lost
  deriving DecidableEq, Repr

def Outcome.served (o : Outcome) : Bool := o = .ok ∨ o = .lost

/-- The answer of something that takes time. -/
inductive Poll where
  | waiting | done | failed
  deriving DecidableEq, Repr

/-- The calls to the API server, by the place they are made at. -/
inductive Call where
  | getInstance | deferredStatus
  | deletingGetInstance | getMonitoring | deleteMonitoring | removeFinalizer
  | getDatabase (name : String) | deleteDatabase (name : String)
  | stoppingGetInstance | stoppingStatus | stoppingGetSts | stoppingApplySts
  | stoppingMonitoring | stoppingServices | stoppedGetInstance | stoppedGetLoadBalancer
  | stoppedStatus
  | addFinalizer | parameterStatus | configMap
  | snapshot (name : String) | getSnapshot (name : String)
  | patchingGetSts | patchingDeleteSts | patchingApplySts
  | oldGetSts | oldDeleteSts | oldGetPvc (name : String) | oldDeletePvc (name : String)
  | rebuildSts
  | acquireLock | releaseLock | restoreSpec
  | preparationStatus | restoreStatus | bootstrapStatus | bootstrappedStatus
  | datapatchStatus | restoredStatus
  | resizeGetSts | resizeApplySts | resizeResources | resizeGetOldSts | resizeDeleteSts
  | mainApplySts | loadBalancer | dataplaneServices | labels
  | monitoringSecret | monitoringDeployment | databaseStatus
  deriving DecidableEq, Repr

/-- What a launch of a physical restore comes back with. -/
inductive Launch where
  | started | finished | alreadyExists | failed
  /-- The operation runs, but the caller sees an error. -/
  | lost
  deriving DecidableEq, Repr

def Launch.runs (l : Launch) : Bool := l = .started ∨ l = .finished ∨ l = .lost

/-- What one reconcile meets outside of the instance and its objects. -/
structure Env where
  now : Time
  /-- Default images of the operator. -/
  images : StrMap
  config : Except ApiError (Option Config)
  catalog : Catalog
  url : String
  /-- Date and nanosecond at the end of a backup ID. -/
  stamp : String
  call : Call → Outcome
  /-- An object that is deleted stays until its finalizers are done. -/
  stsLingers : Bool
  pvcLingers : Bool
  monitoringExists : Bool
  loadBalancerExists : Bool
  /-- Percentage of `statusProgress` for a StatefulSet that exists. -/
  progress : Nat
  stsReady : Bool
  resizePvcs : Poll
  podsSchedulable : Bool
  oracleRunning : Bool
  monitoringSecretChanged : Bool
  databaseClient : Bool
  monitoringUser : Bool
  applyDataPatch : Bool
  datapatch : Poll
  physicalRestore : Launch
  /-- The poll of the physical restore; an operation can be done with an error. -/
  physicalRestoreDone : Bool
  physicalRestoreError : Bool
  bootstrapDatabase : Bool
  maintenanceWindow : Bool
  parameterState : Option StrMap
  setParameters : Option Bool
  bounceDatabase : Bool
  recoverParameters : Bool
  setDnfs : Bool
  incarnation : Option String
  verifySettings : Bool
  primaryCredential : Bool
  createStandby : Poll
  dataGuard : Bool
  promoteStandby : Bool
  bootstrapStandby : Bool
  seededImage : Option Bool
  createCDB : Bool
  createCDBDone : Poll
  bootstrapCDB : Option Bool
  bootstrapCDBDone : Poll

abbrev P := Prog Session Result

variable (env : Env)

def reached (c : Call) : Bool := env.call c = .ok

section Memory

def readyCond (inst : Instance) : Option Condition := findCondition inst.status.conditions .ready

def dbInstanceCond (inst : Instance) : Option Condition :=
  findCondition inst.status.conditions .databaseInstanceReady

def setMem (f : Instance → Instance) : P Unit := modify fun s => { s with mem := f s.mem }

def setStatus (f : InstanceStatus → InstanceStatus) : P Unit :=
  setMem fun inst => { inst with status := f inst.status }

/-- `InstanceUpsertCondition` on the copy in memory. -/
def upsertCondition (name : CondType) (status : CondStatus) (reason : Reason)
    (message : String) : P Unit :=
  setStatus fun st =>
    { st with conditions := upsert env.now name status reason message st.conditions }

def setReady (status : CondStatus) (reason : Reason) (message : String) : P Unit :=
  upsertCondition env .ready status reason message

/-- A callee reads the instance again and works on a copy of its own. -/
def withFresh {α : Type} (p : P α) : P α :=
  onCopy (fun s => { s with mem := s.stored, memVersion := s.resourceVersion })
    (fun s t => { t with mem := s.mem, memVersion := s.memVersion }) p

/-- A callee gets the instance by value: it shares the array of conditions with its caller. -/
def byValue {α : Type} (p : P α) : P α :=
  onCopy id
    (fun s t =>
      { t with
        mem := { s.mem with
          status := { s.mem.status with conditions := t.mem.status.conditions } }
        memVersion := s.memVersion }) p

end Memory

section Writes

/-- The server takes the object; a write that changes nothing keeps the version. -/
def Session.store (s : Session) (inst : Instance) : Session :=
  if inst = s.stored then s
  else { s with stored := inst, resourceVersion := s.resourceVersion + 1 }

/-- Write an object made from the copy; the answer of the server replaces the copy. -/
def write (object : Session → Instance) (c : Call) : P Bool := fun s =>
  let t := s.store (object s)
  if s.memVersion ≠ s.resourceVersion then .next false s
  else match env.call c with
    | .ok => .next true { t with mem := t.stored, memVersion := t.resourceVersion }
    | .lost => .next false t
    | _ => .next false s

/-- `Status().Update`, which leaves everything but the status alone. -/
def updateStatus (c : Call) : P Bool :=
  write env (fun s => { s.stored with status := s.mem.status }) c

/-- `Update`, which leaves the status alone. -/
def update (c : Call) : P Bool :=
  write env (fun s => { s.mem with status := s.stored.status }) c

def recordEventAndUpdateStatus (c : Call) (status : CondStatus) (reason : Reason)
    (message : String) : P Unit := do
  setReady env status reason message
  let _ ← updateStatus env c
  pure ()

/-- Any other write: it has its effect if it was served, and the caller sees whether it
succeeded. -/
def effect (c : Call) (f : Session → Session) : P Bool := fun s =>
  .next (env.call c = .ok) (if (env.call c).served then f s else s)

/-- `CreateOrUpdate` or a server side apply of a whole StatefulSet. -/
def applySts (path : Path) (sts : StatefulSet) (c : Call) : P Bool :=
  effect env c fun s =>
    { s with
      sts := some sts
      stsDeleting := s.sts.isSome && s.stsDeleting
      acts := .applySts path s.sts.isNone sts (s.mem.status.activeImages.getD ∅) :: s.acts }

/-- A write of the StatefulSet that was read, with one field changed. -/
def rewriteSts (f : StatefulSet → StatefulSet) (c : Call) : P Bool :=
  effect env c fun s => { s with sts := s.sts.map f }

def deleteSts (path : Path) (c : Call) : P Bool :=
  effect env c fun s =>
    { s with
      sts := if env.stsLingers then s.sts else none
      stsDeleting := env.stsLingers
      acts := .deleteSts path :: s.acts }

def deletePvc (path : Path) (pvc snapshot : String) (c : Call) : P Bool :=
  effect env c fun s =>
    { s with
      pvcs := if env.pvcLingers then s.pvcs else s.pvcs.filter (· ≠ pvc)
      acts := .deletePvc path pvc (s.snapshots.lookup snapshot) :: s.acts }

/-- `createMonitoringDeployment`. -/
def createMonitoringDeployment (replicas : Nat) (images : StrMap) (c : Call) : P Bool :=
  effect env c fun s => { s with monitoring := some (images, replicas) }

end Writes

section Configuration

/-- Replace the images of the keys that are there already. -/
def overrideImages (images : StrMap) (replacements : Option StrMap) : StrMap :=
  match replacements with
  | none => images
  | some replacements => (replacements \ (replacements \ images)) ∪ images

def supportedPlatform (platform : String) : Bool :=
  platform ∈ ["GCP", "BareMetal", "Minikube", "Kind"]

def definesService (images : Option StrMap) : Bool := images.any fun m => "service" ∈ m

/-- The images for an instance, from the defaults, the Config and the spec. -/
def overrideDefaultImages (config : Option Config) (inst : Instance) : Except String StrMap :=
  if config.any fun c => ¬ supportedPlatform c.platform then .error "Unsupported platform"
  else
    let images := overrideImages env.images (config.bind (·.images))
    let images := overrideImages images inst.spec.images
    if inst.spec.cdbName = "" then
      .error "overrideDefaultImages: CDBName isn't defined in the config"
    else if definesService inst.spec.images ∨ definesService (config.bind (·.images)) then
      .ok images
    else .error "overrideDefaultImages: Service image isn't defined in the config"

/-- A copy of a map as it comes back from the server, which does not keep an empty one. -/
def cloneMap (source : Option StrMap) : Option StrMap :=
  if source.getD ∅ = ∅ then none else source

/-- `statusProgress` without the percentage: the StatefulSet exists and its pod is ready. -/
def stsComplete (s : Session) : Bool := s.sts.isSome && env.progress = 100

/-- `updateProgressCondition`, which notes the percentage in the Ready condition. -/
def updateProgressCondition (op : String) : P Bool := do
  let s ← get
  let progress := if s.sts.isSome then env.progress else 0
  match readyCond s.mem with
  | none => pure (stsComplete env s)
  | some cond => do
    when (0 < progress)
      (setReady env cond.status cond.reason (op ++ ": " ++ toString progress ++ "%"))
    pure (stsComplete env s)

def reconcileMonitoring (images : StrMap) : P Poll := do
  if ¬ reached env .monitoringSecret then pure .failed
  else if env.monitoringSecretChanged then pure .waiting
  else if ¬ env.databaseClient then pure .failed
  else do
    let ok ← createMonitoringDeployment env 1 images .monitoringDeployment
    pure (if ok then (if env.monitoringUser then .done else .waiting) else .failed)

end Configuration

end ElCarro.Instance.Reconciler
