import ElCarro.Instance.World

/-! # The first part of a reconcile

Deletion, stop, pause, the standby machine and the parameter update machine come
before the configuration is loaded. All but the last two steps leave the
reconcile when they apply.
-/

namespace ElCarro.Instance.Reconciler

open GoTime K8s Api Flow

variable (env : Env)

def isStopped (inst : Instance) : Bool := inst.spec.isStopped = some true

def isDeleting (inst : Instance) : Bool := inst.deletionTimestamp.isSome

/-- The part of a unique name after its first dot. -/
def domainFromName (name : String) : String :=
  String.ofList ((name.toList.dropWhile (· ≠ '.')).drop 1)

/-- `validateSpec`: the domains agree and the database name has no quote. -/
def validateSpec (inst : Instance) : Bool :=
  (¬ '.' ∈ inst.spec.dbUniqueName.toList ∨ inst.spec.dbDomain = "" ∨
    domainFromName inst.spec.dbUniqueName = inst.spec.dbDomain) ∧
  ¬ '"' ∈ inst.spec.cdbName.toList

section Deletion

/-- An object with a finalizer is only marked as deleted. -/
def deleteObject (now : Time) (name : String) (databases : Finmap fun _ : String => Database) :
    Finmap fun _ : String => Database :=
  match databases.lookup name with
  | none => databases
  | some db =>
    if db.hasFinalizer then
      databases.insert name { db with deletionTimestamp := some (db.deletionTimestamp.getD now) }
    else databases.erase name

/-- A Database that cannot be read ends the loop, without an error if it is not there. -/
def deleteDatabases : List String → P Unit
  | [] => pure ()
  | name :: rest => do
    when (env.call (.getDatabase name) = .notFound) (finish .stop)
    when (¬ reached env (.getDatabase name)) (finish .error)
    let ok ← effect env (.deleteDatabase name) fun s =>
      { s with databases := deleteObject env.now name s.databases }
    when (¬ ok) (finish .error)
    deleteDatabases rest

def reconcileInstanceDeletion : P Unit := withFresh do
  when (env.call .deletingGetInstance = .notFound) (finish .stop)
  when (¬ reached env .deletingGetInstance) (finish .error)
  -- removeMonitoringDeployment
  when (¬ reached env .getMonitoring) (finish .error)
  when env.monitoringExists (do
    let ok ← effect env .deleteMonitoring fun s => { s with monitoring := none }
    finish (if ok then .requeue else .error))
  let s ← get
  when (s.mem.status.databaseNames = []) (do
    setMem fun inst => { inst with hasFinalizer := false }
    let ok ← update env .removeFinalizer
    finish (if ok then .stop else .error))
  deleteDatabases env s.mem.status.databaseNames
  finish (.requeueAfter (10 * second))

end Deletion

section Stop

def stopDBStatefulset : P Unit := do
  let s ← get
  when (¬ reached env .stoppingGetSts ∨ s.sts = none) (finish .error)
  let ok ← rewriteSts env (fun sts => { sts with replicas := 0 }) .stoppingApplySts
  when (¬ ok) (finish .error)

def stopMonitoringDeployment : P Unit := do
  let s ← get
  match env.config with
  | .error _ => finish .error
  | .ok config =>
    match overrideDefaultImages env config s.mem with
    | .error _ => finish .error
    | .ok images => do
      let ok ← createMonitoringDeployment env 0 images .stoppingMonitoring
      when (¬ ok) (finish .error)

def reconcileInstanceStop : P Unit := withFresh do
  when (env.call .stoppingGetInstance = .notFound) (finish .stop)
  when (¬ reached env .stoppingGetInstance) (finish .error)
  recordEventAndUpdateStatus env .stoppingStatus .false .instanceStoppingInProgress
    "Instance is being stopped"
  stopDBStatefulset env
  stopMonitoringDeployment env
  when (¬ reached env .stoppingServices) (finish .error)
  when (env.call .stoppedGetInstance = .notFound) (finish .stop)
  when (¬ reached env .stoppedGetInstance) (finish .error)
  modify fun s => { s with mem := s.stored, memVersion := s.resourceVersion }
  when (¬ reached env .stoppedGetLoadBalancer) (finish .error)
  when env.loadBalancerExists (finish .stop)
  recordEventAndUpdateStatus env .stoppedStatus .true .instanceStopped "Instance has been stopped"
  finish .stop

end Stop

section Standby

def isStandbyDR (inst : Instance) : Bool :=
  inst.spec.replicationSettings.isSome ||
    (findCondition inst.status.conditions .standbyDRReady).any (·.status ≠ .true)

def standbyErrorRetryInterval : Duration := 60 * second

def updateStandbyDataReplicationStatus (status : CondStatus) (nextState : Reason)
    (message : String) : P Unit :=
  upsertCondition env .standbyDRReady status nextState message

/-- Set the next state and leave the reconcile. -/
def standbyNext (nextState : Reason) (message : String) (r : Result) : P Unit := do
  updateStandbyDataReplicationStatus env .false nextState message
  finish r

def standbyReplicationSettings : P Unit :=
  setMem fun inst => { inst with
    status := { inst.status with currentReplicationSettings := inst.spec.replicationSettings } }

def standbyReady : P Unit := do
  updateStandbyDataReplicationStatus env .true .standbyDRBootstrapCompleted
    "bootstrap standby completed"
  setReady env .true .createComplete "bootstrap standby completed"
  upsertCondition env .databaseInstanceReady .true .createComplete "bootstrap standby completed"
  finish .requeue

def standbyPromote (retry : Result) : P Unit := do
  let s ← get
  if env.promoteStandby ∨ s.mem.status.currentReplicationSettings = none then
    standbyNext env .standbyDRPromoteCompleted "promote standby completed" .requeue
  else standbyNext env .standbyDRPromoteFailed "promote standby failed" retry

/-- Data Guard is set up again in each of its states, as long as there are settings. -/
def standbyDataGuard (current : Reason) : P Unit := do
  let s ← get
  when (s.mem.spec.replicationSettings = none) (standbyNext env current "" .stop)
  standbyReplicationSettings
  if env.dataGuard then
    standbyNext env .standbyDRSetUpDataGuardCompleted "set up Data Guard completed" .requeue
  else
    standbyNext env .standbyDRSetUpDataGuardFailed "set up Data Guard failed"
      (.requeueAfter standbyErrorRetryInterval)

def standbyStateMachine : P Unit := do
  let s ← get
  let state : Reason :=
    ((findCondition s.mem.status.conditions .standbyDRReady).map (·.reason)).getD
      .standbyDRVerifyFailed
  match state with
  | .standbyDRVerifyFailed =>
    if env.verifySettings then
      standbyNext env .standbyDRVerifyCompleted "validate replication settings completed" .requeue
    else
      standbyNext env .standbyDRVerifyFailed "validate replication settings failed"
        (.requeueAfter standbyErrorRetryInterval)
  | .standbyDRVerifyCompleted => do
    standbyReplicationSettings
    standbyNext env .standbyDRCreateInProgress "create standby instance in progress" .requeue
  | .standbyDRCreateInProgress => do
    when (s.mem.spec.replicationSettings = none)
      (standbyNext env .standbyDRCreateInProgress "" .stop)
    standbyReplicationSettings
    when (¬ env.primaryCredential)
      (standbyNext env .standbyDRCreateInProgress "create standby instance failed"
        (.requeueAfter standbyErrorRetryInterval))
    match env.createStandby with
    | .failed => standbyNext env .standbyDRCreateFailed "create standby instance failed" .stop
    | .waiting =>
      standbyNext env .standbyDRCreateInProgress "create standby instance in progress"
        (.requeueAfter standbyErrorRetryInterval)
    | .done =>
      standbyNext env .standbyDRCreateCompleted "create standby instance completed" .stop
  | .standbyDRCreateFailed => finish .stop
  | .standbyDRCreateCompleted => standbyDataGuard env .standbyDRCreateCompleted
  | .standbyDRSetUpDataGuardFailed => standbyDataGuard env .standbyDRSetUpDataGuardFailed
  | .standbyDRSetUpDataGuardCompleted =>
    standbyNext env .standbyDRDataGuardReplicationInProgress
      "Data Guard data replication in progress" .requeue
  | .standbyDRDataGuardReplicationInProgress =>
    if s.mem.spec.replicationSettings = none then standbyPromote env .stop
    else do
      when env.dataGuard standbyReplicationSettings
      standbyNext env .standbyDRDataGuardReplicationInProgress
        (if env.dataGuard then "Data Guard data replication in progress"
          else "Data Guard data replication in progress with errors")
        (.requeueAfter standbyErrorRetryInterval)
  | .standbyDRPromoteFailed => standbyPromote env (.requeueAfter standbyErrorRetryInterval)
  | .standbyDRPromoteCompleted | .standbyDRBootstrapFailed => do
    setStatus fun st => { st with currentReplicationSettings := none }
    if env.bootstrapStandby then standbyReady env
    else
      standbyNext env .standbyDRBootstrapFailed "bootstrap standby failed"
        (.requeueAfter standbyErrorRetryInterval)
  | .standbyDRBootstrapCompleted => standbyReady env
  | _ => finish .stop

end Standby

section Parameters

def isParameterUpdateStateMachineEntryCondition (inst : Instance) : Bool :=
  inst.status.currentActiveStateMachine = .parameterUpdate ||
    (conditionStatusEquals (readyCond inst) .true &&
      conditionStatusEquals (dbInstanceCond inst) .true && inst.spec.parameters.isSome)

/-- The machine is entered, and the parameters are neither the current nor the failed ones. -/
def parameterUpdateRequested (inst : Instance) : Bool :=
  isParameterUpdateStateMachineEntryCondition inst &&
    inst.spec.parameters ≠ inst.status.currentParameters &&
    inst.spec.parameters ≠ inst.status.lastFailedParameterUpdate

def parameterUpdateRollback (message : String) : P Unit :=
  recordEventAndUpdateStatus env .parameterStatus .false .parameterUpdateRollbackInProgress message

/-- The machine proper, on the copy that the caller hands over. -/
def parameterUpdate : P Unit := do
  let s ← get
  when (¬ env.maintenanceWindow) (finish .error)
  let reason : Option Reason := (readyCond s.mem).map (·.reason)
  match reason with
  | some .createComplete => do
    setStatus fun st => { st with currentActiveStateMachine := .parameterUpdate }
    match env.parameterState with
    | none => do
      parameterUpdateRollback env "Sanity check failed for instance parameters"
      finish .error
    | some params => do
      setStatus fun st => { st with currentParameters := some params }
      recordEventAndUpdateStatus env .parameterStatus .false .parameterUpdateInProgress
        "parameterUpdateStateMachine: parameter update in progress"
  | some .parameterUpdateInProgress =>
    match env.setParameters with
    | none => parameterUpdateRollback env "Error while setting instance parameters"
    | some restartRequired =>
      if restartRequired ∧ ¬ env.bounceDatabase then
        parameterUpdateRollback env "error while restarting database"
      else
        recordEventAndUpdateStatus env .parameterStatus .false .parameterUpdateComplete ""
  | some .parameterUpdateComplete => do
    setMem fun inst => { inst with
      status := { inst.status with currentParameters := inst.spec.parameters } }
    recordEventAndUpdateStatus env .parameterStatus .true .createComplete
      "parameterUpdateStateMachine: Parameter update successful"
  | some .parameterUpdateRollbackInProgress => do
    when (¬ env.recoverParameters) (finish .error)
    setMem fun inst => { inst with
      status := { inst.status with lastFailedParameterUpdate := inst.spec.parameters } }
    recordEventAndUpdateStatus env .parameterStatus .true .createComplete
      "parameterUpdateStateMachine: instance recovered after bad parameter update"
  | _ => pure ()

def parameterUpdateStateMachine : P Unit := do
  let s ← get
  when (parameterUpdateRequested s.mem) (byValue (parameterUpdate env))

end Parameters

/-- Deletion and stop, and the way back from a stop. -/
def handleDeletionAndStop : P Unit := do
  let s ← get
  let stopped := conditionReasonEquals (readyCond s.mem) .instanceStopped
  if isDeleting s.mem then reconcileInstanceDeletion env
  else if isStopped s.mem ∧ ¬ stopped then reconcileInstanceStop env
  else
    when (¬ isStopped s.mem ∧ stopped)
      (setReady env .false .createInProgress "Restarting Instance")

def addFinalizer : P Unit := do
  let s ← get
  when (¬ s.mem.hasFinalizer) (do
    setMem fun inst => { inst with hasFinalizer := true }
    let ok ← update env .addFinalizer
    when (¬ ok) (finish .error))

/-- Only an instance in a stable state can be paused. -/
def handlePause : P Unit := do
  let s ← get
  when (s.mem.spec.mode = .pause ∧ (dbInstanceCond s.mem).isSome ∧
      conditionReasonEquals (readyCond s.mem) .createComplete) (do
    setReady env .false .pauseMode "Instance switched to pause mode"
    finish .stop)

def handleStandbyDR : P Unit := do
  let s ← get
  when (conditionReasonEquals (readyCond s.mem) .standbyDRInProgress ∧ isStandbyDR s.mem)
    (standbyStateMachine env)

def handleDnfs : P Unit := do
  let s ← get
  when (conditionStatusEquals (readyCond s.mem) .true ∧
      conditionStatusEquals (dbInstanceCond s.mem) .true ∧
      s.mem.spec.enableDnfs ≠ s.mem.status.dnfsEnabled) (do
    when (¬ env.setDnfs) (finish .error)
    setMem fun inst => { inst with
      status := { inst.status with dnfsEnabled := inst.spec.enableDnfs } })

/-- Everything up to the point where the configuration is loaded. -/
def preamble : P Unit := do
  handleDeletionAndStop env
  addFinalizer env
  handlePause env
  handleStandbyDR env
  parameterUpdateStateMachine env
  handleDnfs env

end ElCarro.Instance.Reconciler
