import ElCarro.Api.Types

/-! # Disks, claims and the StatefulSet

The disks of an instance come from its spec, from the Config of the namespace or
from a default list. Each disk has a claim and a mount; with a restore request
in the parameters the claim template names a VolumeSnapshot as its data source.
-/

namespace ElCarro.Instance

open GoTime K8s Api

def toLower (s : String) : String := String.ofList (s.toList.map Char.toLower)

def gibibyte : Int := 1073741824

def defaultDiskSize : Int := 100 * gibibyte

def defaultDisks : List DiskSpec :=
  [⟨"DataDisk", 100 * gibibyte, ""⟩, ⟨"LogDisk", 150 * gibibyte, ""⟩]

/-- `DefaultDiskSpecs`, of which only the sizes are used. -/
def defaultDiskSpec (diskName : String) : Option Int :=
  if diskName = "DataDisk" then some (100 * gibibyte)
  else if diskName = "LogDisk" then some (150 * gibibyte)
  else if diskName = "BackupDisk" then some (100 * gibibyte)
  else none

/-- `defaultDiskMountLocations`; a missing key reads as the empty string. -/
def defaultDiskMountLocation (diskName : String) : String :=
  if diskName = "DataDisk" then "u02"
  else if diskName = "LogDisk" then "u03"
  else if diskName = "BackupDisk" then "u04"
  else ""

/-- Reserved names are compared without regard to case, default mounts are not. -/
def isReservedDiskName (diskName : String) : Bool :=
  ["datadisk", "backupdisk", "logdisk"].contains (toLower diskName)

/-- The mount of a disk, by `GetPVCNameAndMount` or `GetCustomPVCNameAndMount`. -/
def mountOf (diskName : String) : String :=
  if isReservedDiskName diskName then defaultDiskMountLocation diskName else toLower diskName

def pvcName (instName diskName : String) : String := instName ++ "-pvc-" ++ mountOf diskName

def stsName (instName : String) : String := instName ++ "-sts"

def fullPVCName (instName diskName : String) : String :=
  pvcName instName diskName ++ "-" ++ stsName instName ++ "-0"

/-- The name of the snapshot that a backup ID gives to a disk. -/
def snapshotName (backupID diskName : String) : String := backupID ++ "-" ++ mountOf diskName

def diskSpecs (inst : Instance) (config : Option Config) : List DiskSpec :=
  match inst.spec.disks, config with
  | some disks, _ => disks
  | none, some config => config.disks.getD defaultDisks
  | none, none => defaultDisks

def findDiskSize (disk : DiskSpec) (config : Option Config) : Int :=
  let configured := config.bind fun c => (c.disks.getD []).find? (·.name = disk.name)
  if disk.size ≠ 0 then disk.size
  else match configured with
    | some d => if d.size ≠ 0 then d.size else (defaultDiskSpec disk.name).getD defaultDiskSize
    | none => (defaultDiskSpec disk.name).getD defaultDiskSize

def platformStorageClass (platform : String) : Except String String :=
  if platform = "GCP" then .ok "standard-rwo"
  else if platform = "BareMetal" then .ok "csi-trident"
  else if platform = "Minikube" ∨ platform = "Kind" then .ok "csi-hostpath-sc"
  else .error ("the current release doesn't support deployment platform \"" ++ platform ++ "\"")

def findStorageClassName (disk : DiskSpec) (config : Option Config) : Except String String :=
  if disk.storageClass ≠ "" then .ok disk.storageClass
  else match config with
    | none => platformStorageClass "GCP"
    | some c =>
      match (c.disks.getD []).find? (·.name = disk.name) with
      | some ⟨_, _, storageClass⟩ =>
        if storageClass ≠ "" then .ok storageClass
        else if c.storageClass ≠ "" then .ok c.storageClass
        else platformStorageClass (if c.platform ≠ "" then c.platform else "GCP")
      | none =>
        if c.storageClass ≠ "" then .ok c.storageClass
        else platformStorageClass (if c.platform ≠ "" then c.platform else "GCP")

/-- A typed reference to an object of the same namespace. -/
structure DataSource where
  apiGroup : String
  kind : String
  name : String
  deriving DecidableEq, Repr

def volumeSnapshot (name : String) : DataSource := ⟨"snapshot.storage.k8s.io", "VolumeSnapshot", name⟩

structure PVC where
  ns : String
  name : String
  size : Int
  storageClass : String
  dataSource : Option DataSource
  deriving DecidableEq, Repr

/-- The parameters of a StatefulSet that the modelled steps depend on. -/
structure StsParams where
  inst : Instance
  images : StrMap
  restore : Option RestoreSpec
  disks : List DiskSpec
  config : Option Config
  deriving DecidableEq

structure StatefulSet where
  ns : String
  name : String
  images : StrMap
  resources : StrMap
  replicas : Nat
  volumeClaimTemplates : List PVC
  deriving DecidableEq

/-- The data source of a claim template: only the backup ID of a restore request is looked at. -/
def dataSourceOf (restore : Option RestoreSpec) (disk : DiskSpec) : Option DataSource :=
  match restore with
  | none => none
  | some restore =>
    if restore.backupID ≠ "" then some (volumeSnapshot (snapshotName restore.backupID disk.name))
    else none

def newPVC (sp : StsParams) (disk : DiskSpec) : Except String PVC :=
  let failure := Except.error
    ("failed to identify a storageClassName for disk \"" ++ disk.name ++ "\"")
  match findStorageClassName disk sp.config with
  | .error _ => failure
  | .ok storageClass =>
    if storageClass = "" then failure
    else .ok
      { ns := sp.inst.ns
        name := pvcName sp.inst.name disk.name
        size := findDiskSize disk sp.config
        storageClass := storageClass
        dataSource := dataSourceOf sp.restore disk }

/-- `NewPVCs`: one claim for each disk, or the error of the first disk that has no storage class. -/
def newPVCs (sp : StsParams) : Except String (List PVC) := sp.disks.mapM (newPVC sp)

/-- `constructSTSandPVCs`: the StatefulSet with its claim templates. -/
def constructSTSandPVCs (sp : StsParams) : Except String StatefulSet := do
  let newPVCs ← newPVCs sp
  return {
    ns := sp.inst.ns
    name := stsName sp.inst.name
    images := sp.images
    resources := sp.inst.spec.databaseResources
    replicas := 1
    volumeClaimTemplates := newPVCs }

section

variable {sp : StsParams}

theorem newPVC_ok {disk : DiskSpec} {pvc : PVC} (h : newPVC sp disk = .ok pvc) :
    pvc.ns = sp.inst.ns ∧ pvc.name = pvcName sp.inst.name disk.name ∧
      pvc.dataSource = dataSourceOf sp.restore disk := by
  unfold newPVC at h
  dsimp only at h
  split at h
  · cases h
  · split at h
    · cases h
    · cases h
      exact ⟨rfl, rfl, rfl⟩

theorem forall₂_of_mapM_ok {α β : Type} {f : α → Except String β} {as : List α} {bs : List β}
    (h : as.mapM f = .ok bs) : List.Forall₂ (fun a b => f a = .ok b) as bs := by
  induction as generalizing bs with
  | nil =>
    simp only [List.mapM_nil, pure, Except.pure, Except.ok.injEq] at h
    subst h
    exact .nil
  | cons a as ih =>
    rw [List.mapM_cons] at h
    cases ha : f a with
    | error e => simp [ha, bind, Except.bind] at h
    | ok b =>
      cases has : as.mapM f with
      | error e => simp [ha, has, bind, Except.bind] at h
      | ok rest =>
        simp only [ha, has, bind, Except.bind, pure, Except.pure, Except.ok.injEq] at h
        subst h
        exact .cons ha (ih has)

/-- A constructed StatefulSet has one claim template for each disk, in order. -/
theorem constructSTSandPVCs_ok {sts : StatefulSet} (h : constructSTSandPVCs sp = .ok sts) :
    sts.ns = sp.inst.ns ∧ sts.name = stsName sp.inst.name ∧ sts.images = sp.images ∧
      List.Forall₂ (fun disk pvc => newPVC sp disk = .ok pvc) sp.disks
        sts.volumeClaimTemplates := by
  unfold constructSTSandPVCs at h
  cases hp : newPVCs sp with
  | error e => simp [hp, bind, Except.bind] at h
  | ok pvcs =>
    simp only [hp, bind, Except.bind, pure, Except.pure, Except.ok.injEq] at h
    subst h
    exact ⟨rfl, rfl, rfl, forall₂_of_mapM_ok hp⟩

end

end ElCarro.Instance
