import ElCarro.Instance.Lifecycle
import ElCarro.Standby.Verify

/-! # The standby state machine

The settings of a standby are verified, the standby is created, Data Guard replicates to
it, and when the settings are removed it is promoted and bootstrapped. Each reconcile does
what the reason of the StandbyDRReady condition asks for, with the settings of the spec at
that time, and promotes with the settings that the status has kept.
-/

namespace ElCarro.StandbyDR

open GoTime K8s Api Flow
open Databases.Users (Casing)
open Instance.Reconciler (Result readyCond isStandbyDR standbyErrorRetryInterval)

section Calls

/-- The primary database, as the requests name it. -/
structure PrimarySettings where
  primaryHost : String
  primaryPort : Int
  primaryService : String
  primaryUser : String
  primaryCredential : GsmSecretReference
  deriving DecidableEq, Repr

structure CreateStandbyRequest where
  primary : PrimarySettings
  backupGcsPath : String
  standbyDbDomain : String
  standbyDbUniqueName : String
  standbyLogDiskSize : Int
  operationId : String
  deriving DecidableEq, Repr

structure SetUpDataGuardRequest where
  primary : PrimarySettings
  standbyDbUniqueName : String
  standbyHost : String
  passwordFileGcsPath : String
  deriving DecidableEq, Repr

structure PromoteStandbyRequest where
  primary : PrimarySettings
  standbyDbUniqueName : String
  standbyHost : String
  deriving DecidableEq, Repr

structure BootstrapStandbyRequest where
  cdbName : String
  version : String
  dbDomain : String
  deriving DecidableEq, Repr

/-- The calls of the machine, and whether they came back without an error. -/
inductive Call where
  | verifyStandbySettings (task : Task)
  | createStandby (req : CreateStandbyRequest)
  | setUpDataGuard (req : SetUpDataGuardRequest) (ok : Bool)
  | promoteStandby (req : PromoteStandbyRequest) (ok : Bool)
  | bootstrapStandby (req : BootstrapStandbyRequest) (ok : Bool)

structure Ingress where
  hostname : String
  ip : String
  deriving DecidableEq, Repr

structure StandbyOperation where
  error : Option String
  done : Bool
  deriving DecidableEq, Repr

/-- What becomes of the object for a database that was migrated. -/
inductive DatabaseReply where
  | created
  | alreadyExists (patch : Option String)
  | failed (err : String)
  deriving DecidableEq, Repr

/-- What one reconcile meets outside of the instance. -/
structure Env where
  now : Time
  databaseClient : Option String
  answers : Answers
  createStandby : Except String StandbyOperation
  loadBalancer : Except String (List Ingress)
  setUpDataGuard : Option String
  dataGuardStatus : Except String (List String)
  promoteStandby : Option String
  bootstrapStandby : Except String (List DatabaseReply)
  /-- Settings as `json.Marshal` writes them. -/
  json : Option ReplicationSettings → String

structure Session where
  inst : Instance
  /-- Newest first. -/
  calls : List Call

abbrev P := Prog Session Result

end Calls

section Helpers

variable (env : Env)

def standbyReconcileInterval : Duration := 60 * second

def setStatus (f : InstanceStatus → InstanceStatus) : P Unit :=
  modify fun s => { s with inst := { s.inst with status := f s.inst.status } }

def record (call : Call) : P Unit := modify fun s => { s with calls := call :: s.calls }

def upsertCondition (name : CondType) (status : CondStatus) (reason : Reason) (message : String) :
    P Unit :=
  setStatus fun st =>
    { st with conditions := upsert env.now name status reason message st.conditions }

def statusMessage (msg : String) (errMsgs : List String) : String :=
  if errMsgs = [] then msg
  else msg ++ "\n" ++ "\n".intercalate (errMsgs.mergeSort fun a b => decide (a ≤ b))

def updateStandbyDataReplicationStatus (status : CondStatus) (nextState : Reason) (msg : String)
    (errMsgs : List String) : P Unit :=
  upsertCondition env .standbyDRReady status nextState (statusMessage msg errMsgs)

/-- Set the next state, and return. -/
def next (nextState : Reason) (msg : String) (errMsgs : List String) (r : Result) : P Unit := do
  updateStandbyDataReplicationStatus env .false nextState msg errMsgs
  finish r

def internalErrToMsg (err : String) : String := "Internal error: " ++ err ++ " ."

def replicationSettingsNilErr (settings : Option ReplicationSettings) : String :=
  "spec.replicationSettings must be specified for a standby instance before promotion ready " ++
    "state. Try adding back spec.replicationSettings to the instance Kubernetes manifest. " ++
    "Last known replicationSettings: " ++ env.json settings

def toCredentialReq (userSpec : CommonUserSpec) : Except String GsmSecretReference :=
  match userSpec.gsmSecretRef with
  | some ref => .ok ref
  | none => .error "failed to find a valid credential spec"

def primarySettings (settings : ReplicationSettings) (credential : GsmSecretReference) :
    PrimarySettings :=
  ⟨settings.primaryHost, settings.primaryPort, settings.primaryServiceName,
    settings.primaryUser.name, credential⟩

def getStandbyHost (inst : Instance) : Except String String :=
  match env.loadBalancer with
  | .error err => .error err
  | .ok ingress =>
    let standbyHost := match ingress with
      | [] => ""
      | first :: _ => if first.hostname = "" then first.ip else first.hostname
    if standbyHost = "" then .error ("load balancer service of " ++ inst.name ++ " not ready")
    else .ok standbyHost

/-- `LogDisk` of the spec, or 150Gi. -/
def findLogDiskSize (inst : Instance) : Int :=
  match (inst.spec.disks.getD []).find? fun d => d.name = "LogDisk" ∧ d.size ≠ 0 with
  | some d => d.size
  | none => 161061273600

/-- The domain is what follows the first dot of the unique name, if there is one. -/
def getDBDomain (inst : Instance) : String :=
  match inst.spec.dbUniqueName.toList.dropWhile (· ≠ '.') with
  | [] => inst.spec.dbDomain
  | _ :: domain => String.ofList domain

def lroOperationID (opType : String) (inst : Instance) : String := opType ++ "_" ++ inst.uid

end Helpers

section Steps

variable (casing : Casing) (env : Env)

def StandbySettingErrType.code : StandbySettingErrType → Nat
  | .unknown => 0
  | .connectionFailure => 1
  | .incompatibleDatabaseVersion => 2
  | .insufficientPrivilege => 3
  | .invalidLoggingSetup => 4
  | .invalidDBParam => 5
  | .invalidServiceImage => 6
  | .invalidCDBName => 7
  | .internalError => 8

/-- The settings, or what is wrong with the spec before anything is asked. -/
def checkSpec (inst : Instance) : Except String ReplicationSettings :=
  if inst.spec.dbUniqueName = "" then
    .error ("spec.dbUniqueName is required for standby replication, try adding " ++
      "spec.dbUniqueName in the instance Kubernetes manifest.")
  else if inst.spec.cdbName = "" then
    .error ("spec.cdbName is required for standby replication, try adding spec.cdbName in the " ++
      "instance Kubernetes manifest.")
  else if valueAt (inst.spec.images.getD ∅) "service" = "" then
    .error ("spec.images.service is required for standby replication, try adding " ++
      "spec.images.service in the instance Kubernetes manifest.")
  else match inst.spec.replicationSettings with
    | none =>
      .error ("spec.replicationSettings is required for standby replication, try adding " ++
        "spec.replicationSettings in the instance Kubernetes manifest.")
    | some settings =>
      if settings.primaryUser.gsmSecretRef = none then
        .error ("spec.replicationSettings.primaryCredential.gsmSecretRef is required for " ++
          "standby replication, try creating a secret to store password in Google Secret " ++
          "Manager and add corresponding spec.replicationSettings.primaryCredential." ++
          "gsmSecretRef in the instance Kubernetes manifest.")
      else if settings.primaryUser.name ≠ "sys" then
        .error "spec.replicationSettings.primaryUser.name must be sys for standby replication."
      else .ok settings

def verifyTask (inst : Instance) (settings : ReplicationSettings) : Task where
  primary := ⟨settings.primaryHost, settings.primaryPort, settings.primaryServiceName⟩
  standby := ⟨inst.spec.cdbName, inst.spec.version⟩
  passwordGcsPath := settings.passwordFileURI
  backupGcsPath := settings.backupURI
  answers := env.answers

/-- Error messages for the user, or an error. -/
def verifySettings (inst : Instance) : P (Except String (List String)) :=
  match checkSpec inst with
  | .error externalErrMsg => pure (.ok [externalErrMsg])
  | .ok settings =>
    match toCredentialReq settings.primaryUser with
    | .error err => pure (.error err)
    | .ok _ =>
      match env.databaseClient with
      | some err => pure (.error
          ("config_agent_helpers/VerifyStandbySettings: failed to create database daemon " ++
            "dbdClient: " ++ err))
      | none => do
        let task := verifyTask env inst settings
        record (.verifyStandbySettings task)
        let settingErrs := verifyStandbySettings casing task
        pure (.ok (settingErrs.map fun e => toString e.type.code ++ ": " ++ e.detail))

def verifyFailed (inst : Instance) : P Unit := do
  match ← verifySettings casing env inst with
  | .error err =>
    next env .standbyDRVerifyFailed "validate replication settings failed" [internalErrToMsg err]
      (.requeueAfter standbyErrorRetryInterval)
  | .ok externalErrMsgs =>
    if externalErrMsgs ≠ [] then
      next env .standbyDRVerifyFailed "validate replication settings failed" externalErrMsgs
        (.requeueAfter standbyErrorRetryInterval)
    else
      next env .standbyDRVerifyCompleted "validate replication settings completed" [] .requeue

def keepSettings (settings : Option ReplicationSettings) : P Unit :=
  setStatus fun st => { st with currentReplicationSettings := settings }

def verifyCompleted (inst : Instance) : P Unit := do
  keepSettings inst.spec.replicationSettings
  next env .standbyDRCreateInProgress "create standby instance in progress" [] .requeue

/-- Without settings in the spec nothing is done before the promotion. -/
def settingsMissing (state : Reason) (inst : Instance) : P Unit :=
  next env state (replicationSettingsNilErr env inst.status.currentReplicationSettings) [] .stop

def createInProgress (inst : Instance) : P Unit :=
  match inst.spec.replicationSettings with
  | none => settingsMissing env .standbyDRCreateInProgress inst
  | some settings => do
    keepSettings (some settings)
    match toCredentialReq settings.primaryUser with
    | .error err =>
      next env .standbyDRCreateInProgress "create standby instance failed" [internalErrToMsg err]
        (.requeueAfter standbyErrorRetryInterval)
    | .ok credential =>
      record (.createStandby
        { primary := primarySettings settings credential
          backupGcsPath := settings.backupURI
          standbyDbDomain := inst.spec.dbDomain
          standbyDbUniqueName := inst.spec.dbUniqueName
          standbyLogDiskSize := findLogDiskSize inst
          operationId := lroOperationID "CreateStandby" inst })
      match env.createStandby with
      | .error err =>
        next env .standbyDRCreateFailed "create standby instance failed" [internalErrToMsg err] .stop
      | .ok ⟨some err, _⟩ =>
        next env .standbyDRCreateFailed "create standby instance failed" [err] .stop
      | .ok ⟨none, false⟩ =>
        next env .standbyDRCreateInProgress "create standby instance in progress" []
          (.requeueAfter standbyReconcileInterval)
      | .ok ⟨none, true⟩ =>
        next env .standbyDRCreateCompleted "create standby instance completed" [] .stop

def reconcileDataGuard (inst : Instance) (settings : ReplicationSettings) : P (Option String) :=
  match getStandbyHost env inst with
  | .error err => pure (some err)
  | .ok standbyHost =>
    match toCredentialReq settings.primaryUser with
    | .error err => pure (some err)
    | .ok credential => do
      record (.setUpDataGuard
        { primary := primarySettings settings credential
          standbyDbUniqueName := inst.spec.dbUniqueName
          standbyHost
          passwordFileGcsPath := settings.passwordFileURI } env.setUpDataGuard.isNone)
      match env.setUpDataGuard with
      | some err => pure (some err)
      | none => do
        keepSettings (some settings)
        pure none

/-- The two states in which Data Guard has not been set up yet. -/
def setUp (state : Reason) (inst : Instance) : P Unit :=
  match inst.spec.replicationSettings with
  | none => settingsMissing env state inst
  | some settings => do
    keepSettings (some settings)
    match ← reconcileDataGuard env inst settings with
    | some err =>
      next env .standbyDRSetUpDataGuardFailed "set up Data Guard failed" [internalErrToMsg err]
        (.requeueAfter standbyErrorRetryInterval)
    | none =>
      next env .standbyDRSetUpDataGuardCompleted "set up Data Guard completed" [] .requeue

def updateDataGuardStatus (interval : Duration) : P Unit :=
  setStatus fun st =>
    if st.dataGuardOutput.any fun output => sub env.now output.lastUpdateTime < interval then st
    else
      let output := match env.dataGuardStatus with
        | .ok output => output
        | .error err => [internalErrToMsg err]
      { st with dataGuardOutput := some ⟨rfc3339Copy env.now, output⟩ }

/-- Settings that were promoted are gone from the status. -/
def reconcilePromoteStandby (inst : Instance) : P (Option String) :=
  match inst.status.currentReplicationSettings with
  | none => pure none
  | some settings =>
    match getStandbyHost env inst with
    | .error err => pure (some err)
    | .ok standbyHost =>
      match toCredentialReq settings.primaryUser with
      | .error err => pure (some err)
      | .ok credential => do
        record (.promoteStandby
          { primary := primarySettings settings credential
            standbyDbUniqueName := inst.spec.dbUniqueName
            standbyHost } env.promoteStandby.isNone)
        pure env.promoteStandby

def promote (inst : Instance) (retry : Result) : P Unit := do
  match ← reconcilePromoteStandby env inst with
  | some err =>
    next env .standbyDRPromoteFailed "promote standby failed" [internalErrToMsg err] retry
  | none => next env .standbyDRPromoteCompleted "promote standby completed" [] .requeue

def replicationInProgress (inst : Instance) : P Unit :=
  match inst.spec.replicationSettings with
  | none => promote env inst .stop
  | some settings => do
    match ← reconcileDataGuard env inst settings with
    | some err =>
      updateStandbyDataReplicationStatus env .false .standbyDRDataGuardReplicationInProgress
        "Data Guard data replication in progress with errors" [internalErrToMsg err]
      updateDataGuardStatus env standbyErrorRetryInterval
      finish (.requeueAfter standbyErrorRetryInterval)
    | none =>
      updateStandbyDataReplicationStatus env .false .standbyDRDataGuardReplicationInProgress
        "Data Guard data replication in progress" []
      updateDataGuardStatus env standbyReconcileInterval
      finish (.requeueAfter standbyReconcileInterval)

/-- The first of the migrated databases that has no object in the end. -/
def createMissingDatabases : List DatabaseReply → Option String
  | [] => none
  | .created :: rest => createMissingDatabases rest
  | .alreadyExists none :: rest => createMissingDatabases rest
  | .alreadyExists (some err) :: _ =>
    some ("bootstrapStandby failed to patch database resource: " ++ err)
  | .failed err :: _ => some ("bootstrapStandby failed to create database resource: " ++ err)

def bootstrapStandby (inst : Instance) : P (Option String) := do
  record (.bootstrapStandby ⟨inst.spec.cdbName, inst.spec.version, getDBDomain inst⟩
    env.bootstrapStandby.isOk)
  match env.bootstrapStandby with
  | .error err => pure (some ("failed to bootstrap the standby instance: " ++ err))
  | .ok migratedPDBs => pure (createMissingDatabases migratedPDBs)

def bootstrapCompleted : P Unit := do
  updateStandbyDataReplicationStatus env .true .standbyDRBootstrapCompleted
    "bootstrap standby completed" []
  upsertCondition env .ready .true .createComplete "bootstrap standby completed"
  upsertCondition env .databaseInstanceReady .true .createComplete "bootstrap standby completed"
  finish .requeue

def bootstrap (inst : Instance) : P Unit := do
  setStatus fun st => { st with currentReplicationSettings := none, dataGuardOutput := none }
  match ← bootstrapStandby env inst with
  | some err =>
    next env .standbyDRBootstrapFailed "bootstrap standby failed" [internalErrToMsg err]
      (.requeueAfter standbyErrorRetryInterval)
  | none => bootstrapCompleted env

/-- The reason of the condition, which an instance does not have before its first step. -/
def standbyState (inst : Instance) : Reason :=
  ((findCondition inst.status.conditions .standbyDRReady).map (·.reason)).getD
    .standbyDRVerifyFailed

def standbyStateMachine : P Unit := do
  let s ← get
  match standbyState s.inst with
  | .standbyDRVerifyFailed => verifyFailed casing env s.inst
  | .standbyDRVerifyCompleted => verifyCompleted env s.inst
  | .standbyDRCreateInProgress => createInProgress env s.inst
  | .standbyDRCreateFailed => finish .stop
  | .standbyDRCreateCompleted => setUp env .standbyDRCreateCompleted s.inst
  | .standbyDRSetUpDataGuardFailed => setUp env .standbyDRSetUpDataGuardFailed s.inst
  | .standbyDRSetUpDataGuardCompleted =>
    next env .standbyDRDataGuardReplicationInProgress "Data Guard data replication in progress" []
      .requeue
  | .standbyDRDataGuardReplicationInProgress => replicationInProgress env s.inst
  | .standbyDRPromoteFailed => promote env s.inst (.requeueAfter standbyErrorRetryInterval)
  | .standbyDRPromoteCompleted => bootstrap env s.inst
  | .standbyDRBootstrapFailed => bootstrap env s.inst
  | .standbyDRBootstrapCompleted => bootstrapCompleted env
  | _ => finish .stop

end Steps

end ElCarro.StandbyDR
