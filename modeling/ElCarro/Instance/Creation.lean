import ElCarro.Instance.Lifecycle
import ElCarro.Instance.Restore

/-! # Resizing and creation

The last part of a reconcile resizes an instance that is there, or creates its
StatefulSet and its services and sees the database through its bootstrap.
-/

namespace ElCarro.Instance.Reconciler

open GoTime K8s Api Flow

variable (env : Env)

section Resize

/-- `createStatefulSet`, on the way of the given caller. -/
def createStatefulSet (path : Path) (sp : StsParams) (c : Call) : P Bool :=
  match constructSTSandPVCs sp with
  | .error _ => pure false
  | .ok sts => applySts env path sts c

/-- `FilterDiskWithSizeChanged`: the later of two old templates of one name counts. -/
def diskSizeChanged (old new : List PVC) : Bool :=
  new.any fun pvc =>
    ((old.filter (·.name = pvc.name)).getLast?).any (·.size ≠ pvc.size)

/-- `tryResizeDisksOf`: the StatefulSet is deleted once all claims have their new size. -/
def tryResizeDisksOf (newSts : StatefulSet) : P Poll := do
  let s ← get
  match s.sts with
  | none => pure .waiting
  | some oldSts =>
    if ¬ reached env .resizeGetOldSts then pure .failed
    else if s.stsDeleting then pure .waiting
    else if ¬ diskSizeChanged oldSts.volumeClaimTemplates newSts.volumeClaimTemplates then
      pure .done
    else match env.resizePvcs with
      | .failed => pure .failed
      | .waiting => pure .waiting
      | .done => do
        let ok ← deleteSts env .resize .resizeDeleteSts
        pure (if ok then .waiting else .failed)

/-- `handleResize` for a StatefulSet that exists. -/
def resizeExisting (sp : StsParams) (sts : StatefulSet) (resizing : Bool) : P Unit := do
  let s ← get
  when (s.mem.spec.databaseResources ≠ sts.resources) (do
    setReady env .false .resizingInProgress "Resizing cpu/memory"
    let ok ← rewriteSts env (fun sts => { sts with resources := s.mem.spec.databaseResources })
      .resizeResources
    finish (if ok then .requeueAfter (5 * second) else .error))
  match constructSTSandPVCs sp with
  | .error _ => finish .error
  | .ok newSts =>
    match ← tryResizeDisksOf env newSts with
    | .failed => finish .error
    | .waiting => leave env .resizingInProgress "Resizing disk" (.requeueAfter (10 * second))
    | .done =>
      when resizing (do
        when (env.stsReady ∧ sts.replicas ≠ 0) (do
          setReady env .true .createComplete "Statefulset is running"
          finish .requeue)
        when (¬ env.podsSchedulable) (finish .error))

def handleResize (sp : StsParams) : P Unit := do
  let s ← get
  let resizing := conditionReasonEquals (readyCond s.mem) .resizingInProgress
  if ¬ conditionStatusEquals (readyCond s.mem) .true ∧
      ¬ conditionStatusEquals (dbInstanceCond s.mem) .true ∧ ¬ resizing then pure ()
  else if ¬ reached env .resizeGetSts then finish .error
  else match s.sts with
    | none => do
      setReady env .false .resizingInProgress "Recreating statefulset"
      let ok ← createStatefulSet env .resize sp .resizeApplySts
      finish (if ok then .requeueAfter (5 * second) else .error)
    | some sts => resizeExisting env sp sts resizing

end Resize

section Provisioned

def updateDatabaseIncarnationStatus (incarnation : String) : P Unit :=
  setStatus fun st => { st with
    lastDatabaseIncarnation :=
      if st.currentDatabaseIncarnation ≠ incarnation then st.currentDatabaseIncarnation
      else st.lastDatabaseIncarnation
    currentDatabaseIncarnation := incarnation }

/-- An instance that is ready is left alone but for its monitoring. -/
def handleProvisioned (images : StrMap) : P Unit := do
  let s ← get
  when (conditionStatusEquals (readyCond s.mem) .true ∧
      conditionStatusEquals (dbInstanceCond s.mem) .true) (do
    match ← reconcileMonitoring env images with
    | .failed => finish .error
    | .waiting => finish (.requeueAfter (30 * second))
    | .done =>
      match env.incarnation with
      | none => finish .error
      | some incarnation => do
        updateDatabaseIncarnationStatus incarnation
        finish .stop)

end Provisioned

section Create

def instanceReadyTimeout : Duration := 7200 * second

/-- The wait for a new StatefulSet, which ends with the first active images. -/
def awaitCreation (sp : StsParams) : P Unit := do
  let s ← get
  when (conditionReasonEquals (readyCond s.mem) .createInProgress) (do
    when (elapsedTime env.now (readyCond s.mem) > instanceReadyTimeout)
      (leave env .createInProgress "Instance provision timed out" .stop)
    let complete ← updateProgressCondition env "CreateInProgress"
    when (¬ complete) (finish (.requeueAfter (30 * second)))
    when (s.mem.status.url ≠ "") (do
      setReady env .true .createComplete ""
      setStatus fun st => { st with activeImages := cloneMap (some sp.images) }
      finish .requeue))

def createServices : P Unit := do
  when (¬ reached env .loadBalancer) (finish .error)
  when (¬ reached env .dataplaneServices) (finish .error)
  let s ← get
  when (readyCond s.mem = none) (setReady env .false .createInProgress "")
  setStatus fun st => { st with url := env.url }

def setLabels : P Unit := do
  let s ← get
  when (s.mem.labels = none) (do
    setMem fun inst => { inst with labels := some ((∅ : StrMap).insert "instance" inst.name) }
    let ok ← update env .labels
    when (¬ ok) (finish .error))

/-- The modes in which a new instance becomes a standby, and the promotion of one. -/
def handleStandby : P Unit := do
  let s ← get
  when (isStandbyDR s.mem) (leave env .standbyDRInProgress "standby DR in progress" .requeue)
  when (s.mem.spec.mode = .manuallySetUpStandby) (do
    setReady env .false .manuallySetUpStandbyInProgress "Setting up standby database in progress"
    upsertCondition env .standbyReady .true .createComplete "standby instance creation complete"
    finish .stop)
  when (conditionStatusEquals (findCondition s.mem.status.conditions .standbyReady) .true) (do
    when (¬ env.bootstrapStandby) (finish .error)
    setReady env .true .createComplete ""
    upsertCondition env .databaseInstanceReady .true .createComplete ""
    upsertCondition env .standbyReady .false .promoteStandbyComplete ""
    finish .requeue)

end Create

section Database

def databaseInstanceReadyTimeout (seeded : Bool) : Duration :=
  (if seeded then 1800 else 3600) * second

/-- Set the condition of the database, write the status and leave the reconcile. -/
def databaseNext (status : CondStatus) (reason : Reason) (message : String) : P Unit := do
  upsertCondition env .databaseInstanceReady status reason message
  let ok ← updateStatus env .databaseStatus
  finish (if ok then .requeue else .error)

def startDatabase (seeded : Bool) : P Unit := do
  let s ← get
  if s.mem.spec.restore.isSome then databaseNext env .false .restorePending "Awaiting restore CDB"
  else if ¬ seeded then databaseNext env .false .createPending "Awaiting create CDB"
  else databaseNext env .false .bootstrapPending "Awaiting bootstrap CDB"

def databaseState (images : StrMap) (cond : Condition) : P Unit := do
  match cond.reason with
  | .createPending => do
    when (¬ env.createCDB) (finish .error)
    databaseNext env .false .createInProgress "Database creation in progress"
  | .createInProgress =>
    match env.createCDBDone with
    | .waiting => finish (.requeueAfter (15 * second))
    | .failed => databaseNext env .false .createFailed "CreateCDB LRO returned error"
    | .done => databaseNext env .false .bootstrapPending ""
  | .bootstrapPending =>
    match env.bootstrapCDB with
    | none => finish .error
    | some done =>
      if done then databaseNext env .false .reconcileServices "Services starting"
      else databaseNext env .false .bootstrapInProgress "Database bootstrap in progress"
  | .bootstrapInProgress =>
    match env.bootstrapCDBDone with
    | .waiting => finish (.requeueAfter (15 * second))
    | .failed => databaseNext env .false .createFailed "BootstrapDatabase LRO returned error"
    | .done => databaseNext env .false .reconcileServices "Services starting"
  | .reconcileServices => do
    match ← reconcileMonitoring env images with
    | .failed => finish .error
    | .waiting => finish (.requeueAfter (30 * second))
    | .done => databaseNext env .true .createComplete ""
  | .restorePending => do
    let s ← get
    if conditionReasonEquals (readyCond s.mem) .restoreComplete then
      databaseNext env .true .createComplete ""
    else finish .stop
  | _ => finish .stop

def reconcileDatabaseInstance (images : StrMap) : P Unit := do
  let s ← get
  when (¬ conditionStatusEquals (readyCond s.mem) .true) (finish .requeue)
  match env.seededImage with
  | none => finish .error
  | some seeded =>
    match dbInstanceCond s.mem with
    | none => startDatabase env seeded
    | some cond => do
      when (cond.status ≠ .true ∧
          databaseInstanceReadyTimeout seeded ≤ elapsedTime env.now (some cond)) (do
        upsertCondition env .databaseInstanceReady .false cond.reason
          "Warning: db instance is taking too long to start up - please try delete and recreate"
        finish .stop)
      databaseState env images cond

end Database

/-- Everything after the restore machine. -/
def createInstance (sp : StsParams) : P Unit := do
  handleResize env sp
  handleProvisioned env sp.images
  let ok ← createStatefulSet env .main sp .mainApplySts
  when (¬ ok) (finish .error)
  createServices env
  awaitCreation env sp
  setLabels env
  handleStandby env
  reconcileDatabaseInstance env sp.images

end ElCarro.Instance.Reconciler
