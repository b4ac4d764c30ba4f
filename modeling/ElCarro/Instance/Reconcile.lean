import ElCarro.Lib.Runs
import ElCarro.Instance.Creation

/-! # Reconciles and their environment

A reconcile ends with a write of the status, whichever way it is left. Between
reconciles the user edits the spec, other controllers write their fields of the
status, and StatefulSets, claims and snapshots come and go.
-/

namespace ElCarro.Instance.Reconciler

open GoTime K8s Api Flow

section Reconcile

variable (env : Env)

def stsParams (inst : Instance) (config : Option Config) (images : StrMap) : StsParams :=
  ⟨inst, images, none, diskSpecs inst config, config⟩

/-- The machines, with the parameters of a StatefulSet that has the configured images. -/
def machines (sp : StsParams) : P Unit := do
  handlePatching env sp
  handleRestore env sp
  createInstance env sp

def configured : P Unit := do
  let s ← get
  match env.config with
  | .error _ => finish .error
  | .ok config =>
    match overrideDefaultImages env config s.mem with
    | .error _ => finish .error
    | .ok images => do
      when (¬ reached env .configMap) (finish .error)
      machines env (stsParams s.mem config images)

def body : P Unit := do
  preamble env
  configured env

/-- An instance without a finalizer does not outlive its deletion. -/
def gone (inst : Instance) : Bool := isDeleting inst && ¬ inst.hasFinalizer

def World.session (w : World) : Session := { w with mem := w.stored, memVersion := w.resourceVersion }

def reconcile (w : World) : World :=
  if gone w.stored ∨ ¬ reached env .getInstance ∨ ¬ validateSpec w.stored then w
  else (updateStatus env .deferredStatus (body env w.session).state).state.toWorld

/-- What the work queue gets: a failed write of the status is an error. -/
def reconcileResult (w : World) : Result :=
  if gone w.stored ∨ env.call .getInstance = .notFound then .stop
  else if ¬ reached env .getInstance then .error
  else if ¬ validateSpec w.stored then .stop
  else
    let (r, t) := match body env w.session with
      | .next _ t => (Result.stop, t)
      | .done r t => (r, t)
    match updateStatus env .deferredStatus t with
    | .next true _ => r
    | _ => .error

end Reconcile

inductive Event where
  | reconcile (env : Env)
  | editSpec (spec : InstanceSpec)
  | deleteInstance (now : Time)
  /-- The fields that the controllers of Backups, Databases and the maintenance lock write. -/
  | writeStatus (backupID lockedByController : String) (databaseNames : List String)
  | addSnapshot (name pvc : String)
  | setSnapshotStatus (name : String) (status : SnapshotStatus)
  | removeSnapshot (name : String)
  | stsGone
  | addPvc (name : String)
  | pvcGone (name : String)

def World.edit (w : World) (inst : Instance) : World :=
  { w with stored := inst, resourceVersion := w.resourceVersion + 1 }

def VolumeSnapshot.report (snap : VolumeSnapshot) (status : SnapshotStatus) : VolumeSnapshot :=
  ⟨snap.pvc, some status, snap.reported || status.readyToUse = some true, by simp +contextual⟩

def step (w : World) : Event → Option World
  | .reconcile env => some (reconcile env w)
  | .editSpec spec => some (w.edit { w.stored with spec := spec })
  | .deleteInstance now => some (w.edit { w.stored with deletionTimestamp := some now })
  | .writeStatus backupID lockedByController databaseNames =>
    some (w.edit { w.stored with
      status := { w.stored.status with backupID, lockedByController, databaseNames } })
  | .addSnapshot name pvc =>
    if name ∈ w.snapshots then none
    else some { w with snapshots := w.snapshots.insert name (.new pvc) }
  | .setSnapshotStatus name status =>
    (w.snapshots.lookup name).map fun snap =>
      { w with snapshots := w.snapshots.insert name (snap.report status) }
  | .removeSnapshot name => some { w with snapshots := w.snapshots.erase name }
  | .stsGone => some { w with sts := none, stsDeleting := false }
  | .addPvc name => some { w with pvcs := name :: w.pvcs }
  | .pvcGone name => some { w with pvcs := w.pvcs.filter (· ≠ name) }

section Sample

def serviceImage (image : String) : StrMap := (∅ : StrMap).insert "service" image

/-- Every call succeeds and nothing has to be waited for. -/
def calm (now : Time) : Env where
  now := now
  images := serviceImage "default"
  config := .ok none
  catalog := oneSnapshot
  url := "https://db"
  stamp := "1"
  call := fun _ => .ok
  stsLingers := false
  pvcLingers := false
  monitoringExists := true
  loadBalancerExists := true
  progress := 100
  stsReady := true
  resizePvcs := .done
  podsSchedulable := true
  oracleRunning := true
  monitoringSecretChanged := false
  databaseClient := true
  monitoringUser := true
  applyDataPatch := true
  datapatch := .done
  physicalRestore := .started
  physicalRestoreDone := true
  physicalRestoreError := false
  bootstrapDatabase := true
  maintenanceWindow := true
  parameterState := none
  setParameters := none
  bounceDatabase := true
  recoverParameters := true
  setDnfs := true
  incarnation := some "1"
  verifySettings := true
  primaryCredential := true
  createStandby := .done
  dataGuard := true
  promoteStandby := true
  bootstrapStandby := true
  seededImage := some true
  createCDB := true
  createCDBDone := .done
  bootstrapCDB := some false
  bootstrapCDBDone := .done

/-- An instance that was created with its patching service enabled. -/
def createdInstance (disks : Option (List DiskSpec)) : Instance :=
  let inst := Instance.blank "db" "mydb"
  { inst with
    spec := { inst.spec with patching := true, images := some (serviceImage "old"), disks }
    status := { inst.status with
      conditions := [⟨.ready, .true, .createComplete, "", 0⟩,
        ⟨.databaseInstanceReady, .true, .createComplete, "", 0⟩]
      activeImages := some (serviceImage "old")
      url := "https://db" } }

def dataDisk : DiskSpec := ⟨"DataDisk", 0, ""⟩

/-- The instance with its StatefulSet and the claim of its data disk. -/
def createdWorld (disks : Option (List DiskSpec)) : World where
  stored := createdInstance disks
  resourceVersion := 1
  sts := (constructSTSandPVCs
    (stsParams (createdInstance disks) none (serviceImage "old"))).toOption
  stsDeleting := false
  pvcs := [fullPVCName "mydb" dataDisk.name]
  snapshots := ∅
  monitoring := none
  acts := []
  launches := []
  databases := ∅

/-- The user asks for a new service image. -/
def requestImage (disks : Option (List DiskSpec)) : Event :=
  .editSpec { (createdInstance disks).spec with images := some (serviceImage "new") }

/-- The snapshot of the data disk that the first attempt takes. -/
def patchingSnapshot : String :=
  snapshotName (patchingBackupID (calm 0) (createdInstance none)) dataDisk.name

end Sample

end ElCarro.Instance.Reconciler
