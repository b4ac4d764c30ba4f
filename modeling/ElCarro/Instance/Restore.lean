import ElCarro.Instance.Patching

/-! # The restore machine

A restore request in the spec is served in a chain of reasons of the Ready
condition, each in a reconcile of its own. A state that returns neither an error
nor a result lets the reconcile go on, as do a request that has failed and a
reason outside of the chain.
-/

namespace ElCarro.Instance.Reconciler

open GoTime K8s Api Flow

variable (env : Env)

section Lock

def instanceController : String := "instancecontroller"

/-- `AcquireInstanceMaintenanceLock`: the copy is written even if the lock is taken. -/
def acquireInstanceMaintenanceLock (owner : String) : P Bool := do
  let s ← get
  let locked := s.mem.status.lockedByController
  when (locked = "") (setStatus fun st => { st with lockedByController := owner })
  let ok ← updateStatus env .acquireLock
  pure (ok ∧ (locked = "" ∨ locked = owner))

def releaseInstanceMaintenanceLock (owner : String) : P Bool := do
  let s ← get
  when (s.mem.status.lockedByController = owner)
    (setStatus fun st => { st with lockedByController := "" })
  updateStatus env .releaseLock

end Lock

/-- Release the lock and remove the request; only then the outcome is set. -/
def endRestore (status : CondStatus) (reason : Reason) (message : String) : P Bool := do
  let released ← releaseInstanceMaintenanceLock env instanceController
  if ¬ released then pure false
  else do
    setMem fun inst => { inst with spec := { inst.spec with restore := none } }
    let ok ← update env .restoreSpec
    if ¬ ok then pure false
    else do
      setReady env status reason message
      pure true

def setRestoreSucceeded (message : String) : P Bool :=
  endRestore env .true .restoreComplete message

def setRestoreFailed (message : String) : P Bool :=
  endRestore env .false .restoreFailed message

/-- Go on with the reconcile once the request is removed. -/
def failRestore (message : String) : P Unit := do
  let ok ← setRestoreFailed env message
  when (¬ ok) (finish .error)

/-- Set the reason, write the status and leave the reconcile. -/
def commit (reason : Reason) (message : String) (c : Call) (r : Result) : P Unit := do
  setReady env .false reason message
  let ok ← updateStatus env c
  finish (if ok then r else .error)

section States

variable (restore : RestoreSpec)

/-- The entry points of a restore: take the lock and note the request. The copy has the request
time with its fraction, but `metav1.Time` is written with whole seconds, and the copy is not read
before it is written. -/
def acceptRequest : P Unit := do
  let s ← get
  if (restore.backupType ≠ .snapshot ∧ restore.backupType ≠ .physical) ∨
      s.mem.status.lastRestoreTime.any (rfc3339Copy restore.requestTime ≤ ·) then pure ()
  else do
    let locked ← acquireInstanceMaintenanceLock env instanceController
    when (¬ locked) (finish .error)
    setStatus fun st =>
      { st with lastRestoreTime := some (rfc3339Copy restore.requestTime), backupID := "" }
    commit env .restorePreparationInProgress "" .preparationStatus .requeue

/-- Only a restore from snapshots has to clean up first. -/
def prepareRestore (sp : StsParams) : P Unit := do
  when (restore.backupType = .snapshot) (do
    match ← deleteOldSTSandPVCs env .restore sp with
    | .failed => do
      failRestore env "failed to remove the old StatefulSet and claims"
      finish .error
    | .waiting => finish (.requeueAfter (5 * second))
    | .done => pure ())
  leave env .restorePreparationComplete "" .requeue

def noteLaunch (op : RestoreOp) : P Unit :=
  modify fun s => { s with launches := op :: s.launches }

/-- The StatefulSet of a restore from snapshots is taken by the server. -/
def rebuilds (inst : Instance) (sp : StsParams) : Bool :=
  (restoreSnapshot inst sp).isOk && (env.call .rebuildSts).served

def launchSnapshot (sp : StsParams) : P Unit := do
  let s ← get
  let ok ← createFromSnapshot env .restore s.mem sp
  when (rebuilds env s.mem sp)
    (noteLaunch (.snapshot s.mem.status.lastRestoreTime))
  finish (if ok then .requeue else .error)

/-- `restorePhysical` wraps its error, so an operation that exists already fails like any other. -/
def launchPhysical : P Unit := do
  let s ← get
  when env.physicalRestore.runs
    (noteLaunch (.physical s.mem.status.lastRestoreTime (env.physicalRestore = .finished)))
  match env.physicalRestore with
  | .started => finish .requeue
  | .finished => do
    let ok ← setRestoreSucceeded env "Physical restore done"
    finish (if ok then .requeue else .error)
  | .alreadyExists | .failed | .lost => finish .error

def startRestore (sp : StsParams) : P Unit :=
  match restore.backupType with
  | .snapshot => launchSnapshot env sp
  | .physical => launchPhysical env
  | _ => finish .requeue

/-- The status is written before the restore is launched. -/
def launchRestore (sp : StsParams) : P Unit := do
  setReady env .false .restoreInProgress ""
  let ok ← updateStatus env .restoreStatus
  when (¬ ok) (finish .error)
  startRestore env restore sp

def awaitRestore : P Unit := do
  let s ← get
  match restore.backupType with
  | .snapshot =>
    if stsComplete env s then
      commit env .postRestoreBootstrapInProgress "" .bootstrapStatus .requeue
    else finish (.requeueAfter (10 * second))
  | .physical =>
    if ¬ env.physicalRestoreDone then
      finish (if env.physicalRestoreError then .error else .requeueAfter (10 * second))
    else if env.physicalRestoreError then do
      failRestore env "Failed to restore"
      finish .error
    else commit env .postRestoreBootstrapInProgress "" .bootstrapStatus .requeue
  | _ => failRestore env "Unknown restore type"

def bootstrapRestored : P Unit := do
  if restore.backupType = .physical ∧ ¬ env.bootstrapDatabase then
    failRestore env "Post restore bootstrap failed"
  else do
    when (restore.backupType = .snapshot ∧ ¬ env.oracleRunning)
      (finish (.requeueAfter (10 * second)))
    commit env .postRestoreBootstrapComplete "" .bootstrappedStatus .requeue

/-- The database is patched if the backup was taken with another image. -/
def patchRestored (backup : Backup) : P Unit := do
  let s ← get
  if valueAt backup.annotations databaseImageAnnotation =
      imageAt s.mem.status.activeImages "service" then do
    let _ ← setRestoreSucceeded env "Restored"
    let ok ← updateStatus env .restoredStatus
    when (¬ ok) (finish .error)
  else if env.applyDataPatch then
    commit env .postRestoreDatabasePatchingInProgress "Calling ApplyDataPatch()" .datapatchStatus
      .requeue
  else do
    setReady env .false .restoreFailed "Failed to start database patching"
    let _ ← setRestoreFailed env "Post restore database patching failed"
    pure ()

def awaitRestoredPatching : P Unit := do
  match env.datapatch with
  | .failed => do
    setReady env .false .restoreFailed "Failed to check datapatch status"
    let _ ← setRestoreFailed env "Post restore database patching failed"
    pure ()
  | .waiting => finish (.requeueAfter (10 * second))
  | .done => do
    let ok ← setRestoreSucceeded env "Restored"
    finish (if ok then .requeue else .error)

end States

def restoreState (sp : StsParams) (restore : RestoreSpec) (backup : Backup) (reason : Reason) :
    P Unit :=
  match reason with
  | .restoreComplete | .createComplete | .restoreFailed => acceptRequest env restore
  | .restorePreparationInProgress => prepareRestore env restore sp
  | .restorePreparationComplete => launchRestore env restore sp
  | .restoreInProgress => awaitRestore env restore
  | .postRestoreBootstrapInProgress => bootstrapRestored env restore
  | .postRestoreBootstrapComplete => patchRestored env backup
  | .postRestoreDatabasePatchingInProgress => awaitRestoredPatching env
  | _ => pure ()

/-- The database is ready for a restore. -/
def restorable (inst : Instance) : Bool :=
  conditionReasonEquals (dbInstanceCond inst) .restorePending ||
    conditionReasonEquals (dbInstanceCond inst) .createComplete

def restoreStateMachine (sp : StsParams) (restore : RestoreSpec) : P Unit := do
  let s ← get
  match readyCond s.mem with
  | none => pure ()
  | some cond =>
    if cond.reason = .createInProgress ∨ ¬ restorable s.mem ∨ ¬ restore.force then pure ()
    else match findBackupForRestore env.catalog s.mem restore with
      | .error _ => failRestore env "Could not find a matching backup"
      | .ok backup =>
        let backupReadyCond := findCondition backup.status.conditions .ready
        if conditionStatusEquals backupReadyCond .true then
          restoreState env sp restore backup cond.reason
        else if conditionReasonEquals backupReadyCond .backupFailed then
          failRestore env "Backup is in failed state"
        else finish (.requeueAfter (10 * second))

def handleRestore (sp : StsParams) : P Unit := do
  let s ← get
  match s.mem.spec.restore with
  | none => pure ()
  | some restore => restoreStateMachine env sp restore

end ElCarro.Instance.Reconciler
