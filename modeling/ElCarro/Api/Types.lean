import ElCarro.K8s.Api
import ElCarro.K8s.Condition

/-! # Custom resources

The fields of the custom resources that the modelled controllers read or write.
A nil pointer, slice or map is `none`, so that it differs from an empty one.
-/

namespace ElCarro.Api

open GoTime K8s

inductive BackupType where
  | unset | snapshot | physical | logical
  deriving DecidableEq, Repr

inductive BackupPhase where
  | unset | pending | inProgress | failed | succeeded
  deriving DecidableEq, Repr

structure BackupStatus where
  phase : BackupPhase
  conditions : List Condition
  backupID : String
  deriving DecidableEq, Repr

structure Backup where
  ns : String
  name : String
  labels : StrMap
  annotations : StrMap
  creationTimestamp : Time
  deletionTimestamp : Option Time
  type : BackupType
  status : BackupStatus
  /-- The CronAnything that created the object, which the object itself does not record. -/
  createdBy : Option ObjectKey
  deriving DecidableEq

def pitrLabel : String := "pitr"
def incarnationLabel : String := "incarnation"
def parentIncarnationLabel : String := "parent-incarnation"
def scnAnnotation : String := "scn"
def timestampAnnotation : String := "timestamp"
def databaseImageAnnotation : String := "database-image"

/-- A map read with a missing key gives the empty string. -/
def valueAt (m : StrMap) (key : String) : String := (m.lookup key).getD ""

structure InstanceReference where
  name : String
  deriving DecidableEq, Repr

structure PITR where
  ns : String
  name : String
  /-- The instance, in the namespace of the object; the API server does not accept a missing one. -/
  instanceRef : InstanceReference
  /-- Where its Backups and redo logs are stored. -/
  storageURI : String
  currentDatabaseIncarnation : String
  deriving DecidableEq, Repr

structure PITRRestoreSpec where
  incarnation : String
  timestamp : Option Time
  scn : String
  pitrRef : Option ObjectKey
  deriving DecidableEq, Repr

structure RestoreSpec where
  backupType : BackupType
  backupID : String
  backupRef : Option ObjectKey
  pitrRestore : Option PITRRestoreSpec
  force : Bool
  requestTime : Time
  deriving DecidableEq, Repr

structure DiskSpec where
  name : String
  /-- Bytes; zero when the size is left out. -/
  size : Int
  storageClass : String
  deriving DecidableEq, Repr

structure Config where
  ns : String
  name : String
  platform : String
  images : Option StrMap
  disks : Option (List DiskSpec)
  storageClass : String
  volumeSnapshotClass : String
  deriving DecidableEq

inductive InstanceMode where
  | unset | manuallySetUpStandby | pause
  deriving DecidableEq, Repr

structure GsmSecretReference where
  projectId : String
  secretId : String
  version : String
  deriving DecidableEq, Repr

structure CommonUserSpec where
  name : String
  gsmSecretRef : Option GsmSecretReference
  deriving DecidableEq, Repr

/-- The primary database that an instance stands by for. -/
structure ReplicationSettings where
  primaryHost : String
  primaryPort : Int
  primaryServiceName : String
  primaryUser : CommonUserSpec
  passwordFileURI : String
  backupURI : String
  deriving DecidableEq, Repr

structure DataGuardOutput where
  lastUpdateTime : Time
  statusOutput : List String
  deriving DecidableEq, Repr

inductive StateMachine where
  | none | patching | parameterUpdate
  deriving DecidableEq, Repr

structure InstanceSpec where
  mode : InstanceMode
  isStopped : Option Bool
  /-- Whether the Patching service is enabled. -/
  patching : Bool
  images : Option StrMap
  restore : Option RestoreSpec
  disks : Option (List DiskSpec)
  databasePatchingTimeout : Option Duration
  databaseResources : StrMap
  parameters : Option StrMap
  enableDnfs : Bool
  cdbName : String
  dbUniqueName : String
  dbDomain : String
  version : String
  replicationSettings : Option ReplicationSettings
  deriving DecidableEq

structure InstanceStatus where
  conditions : List Condition
  url : String
  databaseNames : List String
  backupID : String
  lastRestoreTime : Option Time
  currentParameters : Option StrMap
  lastFailedParameterUpdate : Option StrMap
  lastDatabaseIncarnation : String
  currentDatabaseIncarnation : String
  currentReplicationSettings : Option ReplicationSettings
  dataGuardOutput : Option DataGuardOutput
  activeImages : Option StrMap
  lastFailedImages : Option StrMap
  currentActiveStateMachine : StateMachine
  lockedByController : String
  dnfsEnabled : Bool
  deriving DecidableEq

structure Instance where
  ns : String
  name : String
  uid : String
  deletionTimestamp : Option Time
  hasFinalizer : Bool
  labels : Option StrMap
  spec : InstanceSpec
  status : InstanceStatus
  deriving DecidableEq

inductive DatabasePhase where
  | unset | creating | ready
  deriving DecidableEq, Repr

/-- A Database stands for a PDB of its instance. -/
structure Database where
  /-- Name of the PDB, which need not be the name of the object. -/
  specName : String
  /-- What `validateSpec` says against the name or the credentials. -/
  specError : Option String
  deletionTimestamp : Option Time
  hasFinalizer : Bool
  phase : DatabasePhase
  conditions : List Condition
  /-- Whether a reconcile has reported so far that the PDB is created. -/
  reported : Bool
  deriving DecidableEq

/-- A new instance with every optional field left out. -/
def Instance.blank (ns name : String) : Instance where
  ns := ns
  name := name
  uid := "1"
  deletionTimestamp := none
  hasFinalizer := true
  labels := none
  spec :=
    { mode := .unset, isStopped := none, patching := false, images := none, restore := none,
      disks := none, databasePatchingTimeout := none, databaseResources := ∅,
      parameters := none, enableDnfs := false, cdbName := "GCLOUD", dbUniqueName := "",
      dbDomain := "", version := "12.2", replicationSettings := none }
  status :=
    { conditions := [], url := "", databaseNames := [], backupID := "", lastRestoreTime := none,
      currentParameters := none, lastFailedParameterUpdate := none,
      lastDatabaseIncarnation := "", currentDatabaseIncarnation := "1",
      currentReplicationSettings := none, dataGuardOutput := none, activeImages := none,
      lastFailedImages := none, currentActiveStateMachine := .none, lockedByController := "", dnfsEnabled := false }

end ElCarro.Api
