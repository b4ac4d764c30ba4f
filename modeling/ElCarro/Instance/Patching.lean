import ElCarro.Instance.World

/-! # The patching machine

Before the images of an instance change, its disks are snapshotted; when patching
fails, the StatefulSet and the claims are deleted and built again from these
snapshots. A reason that the machine has no case for goes on to the rest of the
reconcile.
-/

namespace ElCarro.Instance.Reconciler

open GoTime K8s Api Flow

variable (env : Env)

def deploymentPatchingTimeout : Duration := 180 * second

def defaultStsPatchingTimeout : Duration := 1500 * second

/-- Set the Ready condition to False and leave the reconcile. -/
def leave (reason : Reason) (message : String) (r : Result) : P Unit := do
  setReady env .false reason message
  finish r

section Snapshots

def patchingBackupID (inst : Instance) : String := "patching-backup-" ++ inst.name ++ env.stamp

def patchSnapshot (name pvc : String) : P Bool :=
  effect env (.snapshot name) fun s =>
    let old := (s.snapshots.lookup name).getD (.new pvc)
    { s with
      snapshots := s.snapshots.insert name { old with pvc := pvc }
      acts := .takeSnapshot name :: s.acts }

def takeSnapshots (backupID : String) : List DiskSpec → P Outcome
  | [] => pure .ok
  | disk :: rest => do
    let s ← get
    let name := snapshotName backupID disk.name
    let ok ← patchSnapshot env name (fullPVCName s.mem.name disk.name)
    if ok then takeSnapshots backupID rest else pure (env.call (.snapshot name))

/-- Snapshots of the disks in the spec, which are none if the spec leaves the list out. -/
def prePatchBackup (backupID : String) : P Outcome := do
  let s ← get
  modify fun s => { s with acts := .beginBackup backupID (s.mem.spec.disks.getD []) :: s.acts }
  takeSnapshots env backupID (s.mem.spec.disks.getD [])

/-- A status without `readyToUse` does not hold the loop up. -/
def checkSnapshots (backupID : String) : List DiskSpec → P Poll
  | [] => pure .done
  | disk :: rest => do
    let s ← get
    let name := snapshotName backupID disk.name
    if ¬ reached env (.getSnapshot name) then pure .failed
    else match s.snapshots.lookup name with
      | none => pure .failed
      | some ⟨_, none, _, _⟩ => pure .waiting
      | some ⟨_, some ⟨some _, _⟩, _, _⟩ => pure .failed
      | some ⟨_, some ⟨none, some false⟩, _, _⟩ => pure .waiting
      | some ⟨_, some ⟨none, none⟩, _, _⟩ => checkSnapshots backupID rest
      | some ⟨_, some ⟨none, some true⟩, _, _⟩ => do
        modify fun s => { s with acts := .seeReady name :: s.acts }
        checkSnapshots backupID rest

def isPatchingBackupCompleted : P Poll := do
  let s ← get
  checkSnapshots env s.mem.status.backupID (s.mem.spec.disks.getD [])

end Snapshots

section Rebuild

/-- The claims are deleted one in each reconcile; a failed deletion is only logged. -/
def deleteOldPVCs (path : Path) : List DiskSpec → P Poll
  | [] => pure .done
  | disk :: rest => do
    let s ← get
    let pvc := fullPVCName s.mem.name disk.name
    if ¬ reached env (.oldGetPvc pvc) then pure .failed
    else if pvc ∈ s.pvcs then do
      let _ ← deletePvc env path pvc (snapshotName s.mem.status.backupID disk.name)
        (.oldDeletePvc pvc)
      pure .waiting
    else deleteOldPVCs path rest

def deleteOldSTSandPVCs (path : Path) (sp : StsParams) : P Poll := do
  let s ← get
  match constructSTSandPVCs sp with
  | .error _ => pure .failed
  | .ok _ =>
    if ¬ reached env .oldGetSts then pure .failed
    else if s.sts.isSome then do
      let _ ← deleteSts env path .oldDeleteSts
      pure .waiting
    else deleteOldPVCs env path sp.disks

/-- `restoreSnapshot`, for the restore section of the given instance. -/
def createFromSnapshot (path : Path) (inst : Instance) (sp : StsParams) : P Bool :=
  match restoreSnapshot inst sp with
  | .error _ => pure false
  | .ok sts => applySts env path sts .rebuildSts

def buildRestoreSpecUsingSnapshotBackupID (backupID : String) : RestoreSpec :=
  ⟨.snapshot, backupID, none, none, false, env.now⟩

/-- The active images come back, with the disks of the backup that the status names. -/
def recoverFromPatchingFailure (sp : StsParams) : P Bool := do
  let s ← get
  let restore := buildRestoreSpecUsingSnapshotBackupID env s.mem.status.backupID
  createFromSnapshot env .recovery { s.mem with spec := { s.mem.spec with restore := some restore } }
    { sp with images := s.mem.status.activeImages.getD ∅ }

end Rebuild

def isPatchingStateMachineEntryCondition (inst : Instance) (spImages : StrMap) : Bool :=
  inst.spec.patching && (dbInstanceCond inst).isSome &&
    conditionStatusEquals (readyCond inst) .true &&
    inst.status.activeImages ≠ some spImages && inst.status.lastFailedImages ≠ some spImages

def imageAt (images : Option StrMap) (name : String) : String :=
  (images.bind (·.lookup name)).getD ""

def statefulSetImages : List String := ["service", "dbinit", "logging_sidecar"]

def isStatefulSetPatchingRequired (currentImages newImages : Option StrMap) : Bool :=
  statefulSetImages.any fun image => imageAt currentImages image ≠ imageAt newImages image

section States

/-- From a stable state: snapshot the disks, unless these images have failed before. -/
def startPatchingBackup (reason : Reason) : P Unit := do
  let s ← get
  when (reason = .patchingRecoveryCompleted ∧ s.mem.spec.images = s.mem.status.lastFailedImages)
    (finish .stop)
  setStatus fun st => { st with currentActiveStateMachine := .patching }
  let backupID := patchingBackupID env s.mem
  match ← prePatchBackup env backupID with
  | .ok => do
    setStatus fun st => { st with backupID := backupID }
    leave env .patchingBackupStarted "Patching Backup Started" .requeue
  | .conflict => finish .error
  | _ => leave env .patchingBackupFailure "" .error

def awaitPatchingBackup : P Unit := do
  match ← isPatchingBackupCompleted env with
  | .failed => leave env .patchingBackupFailure "" .error
  | .waiting => finish (.requeueAfter (30 * second))
  | .done =>
    leave env .deploymentSetPatchingInProgress "Patching backup completed, continuing patching"
      .requeue

/-- Both states of the monitoring deployment: to the new images, and back to the old ones. -/
def patchDeployment (cond : Condition) (images : StrMap) (failure success : Reason) : P Unit := do
  when (elapsedTime env.now (some cond) > deploymentPatchingTimeout)
    (leave env failure "Agent patching timed out" .error)
  match ← reconcileMonitoring env images with
  | .failed => leave env failure "" .error
  | .waiting => finish (.requeueAfter (30 * second))
  | .done => leave env success "" .requeue

/-- `startStatefulSetPatching`: delete the StatefulSet and apply the new one at once. -/
def startStatefulSetPatching (sp : StsParams) : P Bool := do
  let s ← get
  if ¬ reached env .patchingGetSts ∨ s.sts = none then pure false
  else do
    let deleted ← deleteSts env .patching .patchingDeleteSts
    if ¬ deleted then pure false
    else match constructSTSandPVCs sp with
      | .error _ => pure false
      | .ok sts => applySts env .patching sts .patchingApplySts

def patchStatefulSet (sp : StsParams) : P Unit := do
  let s ← get
  when (¬ env.oracleRunning) (finish (.requeueAfter (10 * second)))
  when (¬ isStatefulSetPatchingRequired s.mem.status.activeImages s.mem.spec.images)
    (leave env .statefulSetPatchingComplete "" .requeue)
  let ok ← startStatefulSetPatching env sp
  if ok then leave env .statefulSetPatchingInProgress "" .requeue
  else leave env .statefulSetPatchingFailure "" .error

def awaitStatefulSet (cond : Condition) (timeout : Duration) : P Unit := do
  when (elapsedTime env.now (some cond) > timeout)
    (leave env .statefulSetPatchingFailure "Software patching timed out" .error)
  let complete ← updateProgressCondition env "StatefulSetPatchingInProgress"
  if complete then leave env .statefulSetPatchingComplete "" .requeue
  else finish (.requeueAfter (10 * second))

def patchDatabase : P Unit := do
  when (¬ env.oracleRunning) (finish (.requeueAfter (10 * second)))
  if env.applyDataPatch then
    leave env .databasePatchingInProgress "Calling ApplyDataPatch()" .requeue
  else leave env .databasePatchingFailure "Failed to start database patching" .error

def awaitDatabasePatching (cond : Condition) (timeout : Duration) : P Unit := do
  when (elapsedTime env.now (some cond) > timeout)
    (leave env .databasePatchingFailure "Database patching timed out" .error)
  match env.datapatch with
  | .failed => leave env .databasePatchingFailure "Failed to check datapatch status" .error
  | .waiting => finish (.requeueAfter (10 * second))
  | .done => leave env .databasePatchingComplete "Calling ApplyDataPatch()" .requeue

def completePatching (sp : StsParams) : P Unit := do
  setReady env .true .createComplete ""
  setStatus fun st => { st with
    activeImages := cloneMap (some sp.images), currentActiveStateMachine := .none }
  finish .stop

/-- Remove the StatefulSet and the claims, so that they can be built from the snapshots. -/
def prepareRecovery (sp : StsParams) : P Unit := do
  match ← deleteOldSTSandPVCs env .recovery sp with
  | .failed =>
    leave env .patchingRecoveryFailure "Failed to restore from snapshot after patching failure"
      .error
  | .waiting => finish .requeue
  | .done =>
    leave env .patchingRecoveryInProgress "Restoring snapshot due to patching failure" .requeue

def recover (sp : StsParams) : P Unit := do
  let ok ← recoverFromPatchingFailure env sp
  when (¬ ok) (finish .error)
  let complete ← updateProgressCondition env "PatchingRecoveryInProgress"
  when (¬ complete) (finish (.requeueAfter (10 * second)))
  when (¬ env.oracleRunning) (finish (.requeueAfter (10 * second)))
  setMem fun inst => { inst with
    status := { inst.status with
      lastFailedImages := cloneMap inst.spec.images, currentActiveStateMachine := .none } }
  setReady env .true .patchingRecoveryCompleted
    "Finished restoring from snapshot after patching failure"
  finish .stop

end States

/-- One state for each reason; the other reasons are left to the rest of the reconcile. -/
def patchingState (sp : StsParams) (timeout : Duration) (cond : Condition) : P Unit :=
  match cond.reason with
  | .createComplete | .exportComplete | .restoreComplete | .importComplete
  | .patchingRecoveryCompleted => startPatchingBackup env cond.reason
  | .patchingBackupStarted => awaitPatchingBackup env
  | .deploymentSetPatchingInProgress =>
    patchDeployment env cond sp.images .deploymentSetPatchingRollbackInProgress
      .deploymentSetPatchingComplete
  | .deploymentSetPatchingComplete => patchStatefulSet env sp
  | .deploymentSetPatchingRollbackInProgress =>
    patchDeployment env cond (sp.inst.status.activeImages.getD ∅) .patchingRecoveryFailure
      .patchingRecoveryCompleted
  | .statefulSetPatchingInProgress => awaitStatefulSet env cond timeout
  | .statefulSetPatchingComplete => patchDatabase env
  | .databasePatchingInProgress => awaitDatabasePatching env cond timeout
  | .databasePatchingComplete => completePatching env sp
  | .statefulSetPatchingFailure | .databasePatchingFailure => prepareRecovery env sp
  | .patchingRecoveryInProgress => recover env sp
  | _ => pure ()

def patchingStateMachine (sp : StsParams) (timeout : Duration) : P Unit := do
  let s ← get
  match readyCond s.mem, dbInstanceCond s.mem with
  | some cond, some _ => patchingState env sp timeout cond
  | _, _ => pure ()

/-- The machine runs from its entry condition, or until it has given up the instance. -/
def handlePatching (sp : StsParams) : P Unit := do
  let s ← get
  when (isPatchingStateMachineEntryCondition s.mem sp.images ∨
      s.mem.status.currentActiveStateMachine = .patching)
    (patchingStateMachine env sp
      (s.mem.spec.databasePatchingTimeout.getD defaultStsPatchingTimeout))

end ElCarro.Instance.Reconciler
