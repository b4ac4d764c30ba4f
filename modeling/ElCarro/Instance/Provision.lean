import ElCarro.Instance.Bystanders
import ElCarro.Instance.ParameterCheck

/-! # How a database gets ready

The database of an instance is created, bootstrapped and given its services, or it
waits for a restore. The bootstrap runs at the database daemon: within the call
that asks for it, or as an operation that later reconciles look after; a file on
the disk says that one has been successful. A reconcile is cut here where the
restore machine and where the database begin, and the system notes what happened.
-/

namespace ElCarro.Instance.Provision

open GoTime K8s Api Flow Runs Reconciler

section Daemon

inductive Operation where
  | running | succeeded | failed
  deriving DecidableEq, Repr

structure Host where
  /-- `ProvisioningDoneFile` is on the disk. -/
  provisioningDone : Bool
  /-- The operation `BootstrapCDB` of the instance. -/
  operation : Option Operation
  deriving DecidableEq, Repr

inductive Milestone where
  | bootstrapped | servicesReconciled | restoreComplete
  deriving DecidableEq, Repr

/-- How the daemon answers within one reconcile. -/
structure Answers where
  client : Bool
  fileExists : Bool
  /-- The task that bootstraps the database of an unseeded image. -/
  bootstrapTask : Bool
  createListener : Bool
  createFile : Outcome
  bootstrapAsync : Outcome
  getOperation : Bool
  deleteOperation : Outcome

/-- `BootstrapDatabase`: whether it is done or has been started, what is left of it at the host,
and whether a bootstrap has succeeded. An operation that exists is an error like any other,
since the error of the daemon is wrapped. -/
def bootstrapDatabase (a : Answers) (seeded : Bool) (host : Host) :
    Option Bool × Host × List Milestone :=
  if ¬ a.client ∨ ¬ a.fileExists then (none, host, [])
  else if host.provisioningDone then (some true, host, [])
  else if seeded then
    if host.operation.isSome ∨ ¬ a.bootstrapAsync.served then (none, host, [])
    else
      (if a.bootstrapAsync = .ok then some false else none,
        { host with operation := some .running }, [])
  else if ¬ a.bootstrapTask then (none, host, [])
  else if ¬ a.createListener ∨ ¬ a.createFile.served then (none, host, [.bootstrapped])
  else
    (if a.createFile = .ok then some true else none,
      { host with provisioningDone := true }, [.bootstrapped])

/-- `IsLROOperationDone`, with the error of the operation; an operation that cannot be read is
not done. -/
def isLROOperationDone (a : Answers) (host : Host) : Poll :=
  if ¬ a.getOperation then .waiting
  else match host.operation with
    | some .succeeded => .done
    | some .failed => .failed
    | _ => .waiting

/-- `DeleteLROOperation`, whose error is ignored. -/
def deleteLROOperation (a : Answers) (host : Host) : Host :=
  if a.deleteOperation.served then { host with operation := none } else host

end Daemon

section Reconcile

variable (env : Env)

/-- The parameters of the StatefulSet, once the configuration is there. -/
def loadConfig : P StsParams := do
  let s ← get
  match env.config with
  | .error _ => finish .error
  | .ok config =>
    match overrideDefaultImages env config s.mem with
    | .error _ => finish .error
    | .ok images => do
      when (¬ reached env .configMap) (finish .error)
      pure (stsParams s.mem config images)

/-- A reconcile up to the restore machine. -/
def upToRestore : P StsParams := do
  preamble env
  let sp ← loadConfig env
  handlePatching env sp
  pure sp

/-- A reconcile from there up to the database. -/
def provision (sp : StsParams) : P Unit := do
  handleResize env sp
  handleProvisioned env sp.images
  let ok ← createStatefulSet env .main sp .mainApplySts
  when (¬ ok) (finish .error)
  createServices env
  awaitCreation env sp
  setLabels env
  handleStandby env

theorem body_eq : body env = (do
    let sp ← upToRestore env
    handleRestore env sp
    provision env sp
    reconcileDatabaseInstance env sp.images) := by
  have hconfigured : configured env = loadConfig env >>= machines env := by
    simp only [configured, loadConfig, bind_assoc]
    congr 1
    funext s
    cases env.config with
    | error e => rfl
    | ok config =>
      dsimp only
      cases overrideDefaultImages env config s.mem with
      | error e => rfl
      | ok images => simp only [bind_assoc, pure_bind]
  simp only [body, upToRestore, hconfigured, bind_assoc, pure_bind]
  congr 1
  funext _
  congr 1
  funext sp
  simp only [machines, createInstance, provision, bind_assoc]

/-- The copy or the stored instance says that a restore is complete. -/
def restored (s : Session) : Bool :=
  conditionReasonEquals (readyCond s.stored) .restoreComplete ||
    conditionReasonEquals (readyCond s.mem) .restoreComplete

/-- The restore machine takes the Ready condition to `RestoreComplete` in this reconcile. -/
def restoreCompletes (w : World) : Bool :=
  match upToRestore env w.session with
  | .next sp s => ¬ restored s ∧ restored (handleRestore env sp s).state
  | .done _ _ => false

/-- Where a reconcile comes to the database. -/
def atDatabase (w : World) : Option (StsParams × Session) :=
  match (do
    let sp ← upToRestore env
    handleRestore env sp
    provision env sp
    pure sp : P StsParams) w.session with
  | .next sp s => some (sp, s)
  | .done _ _ => none

/-- The state of the database that is worked on, unless it has been in that state for too long. -/
def databaseTurn (s : Session) : Option (Bool × Reason) :=
  if conditionStatusEquals (readyCond s.mem) .true then
    env.seededImage.bind fun seeded =>
      (dbInstanceCond s.mem).bind fun cond =>
        if cond.status ≠ .true ∧
            databaseInstanceReadyTimeout seeded ≤ elapsedTime env.now (some cond) then none
        else some (seeded, cond.reason)
  else none

/-- The monitoring of the instance is reconciled. -/
def servicesReconcile (images : StrMap) (s : Session) : Bool :=
  match reconcileMonitoring env images s with
  | .next .done _ => true
  | _ => false

end Reconcile

structure System where
  world : World
  host : Host
  /-- Newest first. -/
  history : List Milestone

/-- How the run of `init_oracle` behind an operation ends. -/
inductive BootstrapEnd where
  | failed
  /-- The database is bootstrapped, but the file cannot be created. -/
  | unmarked
  /-- The file is there, but the operation ends with an error. -/
  | reportedAsFailed
  | succeeded
  deriving DecidableEq, Repr

inductive ProvisionEvent where
  | reconcile (env : Env) (a : Answers)
  | endBootstrap (e : BootstrapEnd)
  /-- The daemon forgets its operations; a run may go on without it and succeed. -/
  | restartDaemon (outlived : Bool)
  | other (e : Event)

namespace System

variable (σ : System) (env : Env) (a : Answers)

/-- The answers of the daemon about the bootstrap. -/
def answered : Env :=
  { env with
    bootstrapCDB := (bootstrapDatabase a (env.seededImage.getD false) σ.host).1
    bootstrapCDBDone := isLROOperationDone a σ.host }

def turn : Option (StsParams × Session × Bool × Reason) :=
  if reads (σ.answered env a) σ.world then
    (atDatabase (σ.answered env a) σ.world).bind fun (sp, s) =>
      (databaseTurn (σ.answered env a) s).map fun (seeded, reason) => (sp, s, seeded, reason)
  else none

def hostAfter : Host :=
  match σ.turn env a with
  | some (_, _, seeded, .bootstrapPending) => (bootstrapDatabase a seeded σ.host).2.1
  | some (_, _, _, .bootstrapInProgress) =>
    if isLROOperationDone a σ.host = .waiting then σ.host else deleteLROOperation a σ.host
  | _ => σ.host

def databaseMilestones : List Milestone :=
  match σ.turn env a with
  | some (_, _, seeded, .bootstrapPending) => (bootstrapDatabase a seeded σ.host).2.2
  | some (sp, s, _, .reconcileServices) =>
    if servicesReconcile (σ.answered env a) sp.images s then [.servicesReconciled] else []
  | _ => []

def restoreMilestones : List Milestone :=
  if reads (σ.answered env a) σ.world ∧ restoreCompletes (σ.answered env a) σ.world then
    [.restoreComplete]
  else []

def step : ProvisionEvent → Option System
  | .reconcile env a => some
    { world := Reconciler.reconcile (σ.answered env a) σ.world
      host := σ.hostAfter env a
      history := σ.databaseMilestones env a ++ (σ.restoreMilestones env a ++ σ.history) }
  | .endBootstrap e =>
    if σ.host.operation ≠ some .running then none
    else some (match e with
      | .failed => { σ with host := { σ.host with operation := some .failed } }
      | .unmarked =>
        { σ with
          host := { σ.host with operation := some .failed }
          history := .bootstrapped :: σ.history }
      | .reportedAsFailed =>
        { σ with host := ⟨true, some .failed⟩, history := .bootstrapped :: σ.history }
      | .succeeded =>
        { σ with host := ⟨true, some .succeeded⟩, history := .bootstrapped :: σ.history })
  | .restartDaemon outlived =>
    if outlived ∧ σ.host.operation = some .running then
      some { σ with host := ⟨true, none⟩, history := .bootstrapped :: σ.history }
    else some { σ with host := { σ.host with operation := none } }
  | .other e => (Parameters.otherStep σ.world e).map fun world => { σ with world }

end System

/-- The spec asks neither for replication nor for a standby that is set up by hand. -/
def Single (spec : InstanceSpec) : Prop :=
  spec.replicationSettings = none ∧ spec.mode ≠ .manuallySetUpStandby

/-- The event does not make the instance a standby. -/
def KeepsSingle : ProvisionEvent → Prop
  | .other (.editSpec spec) => Single spec
  | _ => True

/-- A bootstrap has succeeded, and after it a reconcile of the services; or a restore is
complete. -/
def Earned (history : List Milestone) : Prop :=
  [.servicesReconciled, .bootstrapped].Sublist history ∨ .restoreComplete ∈ history

/-- A new instance, on a disk that says nothing about a bootstrap that never was. -/
structure Fresh (σ : System) : Prop where
  single : Single σ.world.stored.spec
  conditions : σ.world.stored.status.conditions = []
  operation : σ.host.operation = none
  provisioned : σ.host.provisioningDone = true → .bootstrapped ∈ σ.history

/-- Status and reason of the condition of the database. -/
def dbView (inst : Instance) : Option (CondStatus × Reason) :=
  (dbInstanceCond inst).map fun cond => (cond.status, cond.reason)

section Properties

variable {Q : Instance → Prop} {env : Env} {s t : Session} {i j : Instance}

/-- No standby, in the spec and by the conditions. -/
structure Calm (inst : Instance) : Prop where
  single : Single inst.spec
  standbyReady : findCondition inst.status.conditions .standbyReady = none
  standbyDRReady : findCondition inst.status.conditions .standbyDRReady = none

/-- All conditions but the Ready condition are the same. -/
def SameOthers (i j : Instance) : Prop :=
  ∀ name, name ≠ .ready →
    findCondition j.status.conditions name = findCondition i.status.conditions name

/-- A property of the spec's mode and of the conditions other than the Ready condition. -/
structure OffReady (Q : Instance → Prop) : Prop where
  calm : ∀ {i}, Q i → Calm i
  congr : ∀ {i j}, Single j.spec → SameOthers i j → Q i → Q j

theorem SameOthers.dbView (h : SameOthers i j) : dbView j = dbView i := by
  simp only [Provision.dbView, dbInstanceCond, h .databaseInstanceReady (by decide)]

theorem sameOthers_withReady {now : Time} {status : CondStatus} {reason : Reason}
    {message : String} : SameOthers i (withReady i now status reason message) :=
  fun _ hne => findCondition_upsert_ne hne

theorem sameOthers_of_conditions (h : j.status.conditions = i.status.conditions) :
    SameOthers i j := by
  intro name _
  rw [h]

theorem single_of_aligned (h : Aligned i j) (hi : Single i.spec) : Single j.spec :=
  ⟨h.replication.trans hi.1, h.mode ▸ hi.2⟩

theorem OffReady.robust (h : OffReady Q) : Robust Q where
  aligned ha hi :=
    h.congr (single_of_aligned ha (h.calm hi).single) (sameOthers_of_conditions ha.conditions) hi
  ready _ _ _ _ _ hi := h.congr (h.calm hi).single sameOthers_withReady hi
  refresh _ _ _ hi := h.congr (h.calm hi).single sameOthers_withReady hi
  status {_ j} hi hj := h.congr (i := j) (h.calm hi).single (fun _ _ => rfl) hj

theorem not_isStandbyDR (h : Calm i) : isStandbyDR i = false := by
  simp [isStandbyDR, h.single.1, h.standbyDRReady]

variable (hrobust : Robust Q) (hcalm : ∀ {i}, Q i → Calm i)

include hcalm in
theorem maintains_handleStandbyDR : Within (Maintains Q) (handleStandbyDR env) := by
  apply maintains_of_both
  intro s hs
  simp only [handleStandbyDR, wp_bind, wp_get, wp_when, not_isStandbyDR (hcalm hs.mem)]
  exact ⟨fun hc => absurd hc.2 (by decide), fun _ => hs⟩

include hcalm in
theorem maintains_handleStandby : Within (Maintains Q) (handleStandby env) := by
  apply maintains_of_both
  intro s hs
  have hc : Calm s.mem := hcalm hs.mem
  have hready : conditionStatusEquals (findCondition s.mem.status.conditions .standbyReady) .true =
      false := by
    rw [hc.standbyReady]
    rfl
  simp only [handleStandby, wp_bind, wp_get, wp_when]
  constructor
  · intro hdr
    rw [not_isStandbyDR hc] at hdr
    cases hdr
  · intro _
    constructor
    · exact fun hm => absurd hm hc.single.2
    · intro _
      constructor
      · intro hr
        rw [hready] at hr
        cases hr
      · exact fun _ => hs

include hrobust hcalm in
theorem maintains_upToRestore
    (hcurrent : ∀ {i} params, Q i →
      Q { i with status := { i.status with currentParameters := params } })
    (hshared : ∀ {i j}, Q i → Q j →
      Q { i with status := { i.status with conditions := j.status.conditions } }) :
    Within (Maintains Q) (upToRestore env) := by
  have hpreamble : Within (Maintains Q) (preamble env) := by
    refine .bind hrobust.handleDeletionAndStop fun _ => .bind hrobust.addFinalizer fun _ => ?_
    refine .bind hrobust.handlePause fun _ => .bind (maintains_handleStandbyDR hcalm) fun _ => ?_
    refine .bind (hrobust.parameterUpdateStateMachine hcurrent hshared) fun _ => ?_
    exact hrobust.handleDnfs
  have hload : Within (Maintains Q) (loadConfig env) := by
    refine .bind .get fun s => ?_
    cases env.config with
    | error e => exact .finish _
    | ok config =>
      dsimp only
      cases overrideDefaultImages env config s.mem with
      | error e => exact .finish _
      | ok images => exact .bind (.when fun _ => .finish _) fun _ => .pure _
  refine .bind hpreamble fun _ => .bind hload fun sp => ?_
  exact .bind hrobust.handlePatching fun _ => .pure sp

include hrobust hcalm in
theorem maintains_provision {sp : StsParams} : Within (Maintains Q) (provision env sp) := by
  refine .bind hrobust.handleResize fun _ => .bind hrobust.handleProvisioned fun _ => ?_
  refine .bind maintains_createStatefulSet fun _ => .bind (.when fun _ => .finish _) fun _ => ?_
  refine .bind hrobust.createServices fun _ => .bind hrobust.awaitCreation fun _ => ?_
  exact .bind hrobust.setLabels fun _ => maintains_handleStandby hcalm

end Properties

end ElCarro.Instance.Provision
