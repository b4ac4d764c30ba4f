import ElCarro.Api.Types

/-! # Where a physical backup is stored

Creation, status, verification, restore and deletion each derive the place of a
backup from its spec. A GCS path is addressed as the string it is; without one,
the backup stays in a directory of the instance.
-/

namespace ElCarro.PhysicalBackup

open Api

structure BackupSpec where
  type : BackupType
  gcsPath : String
  gcsDir : String
  localPath : String
  deriving DecidableEq, Repr

/-- A Backup object, as far as its storage goes. -/
structure Backup where
  name : String
  spec : BackupSpec
  backupTime : String
  deriving DecidableEq, Repr

/-- `strings.HasSuffix`. -/
def HasSuffix (s suffix : String) : Prop := suffix.toList <:+ s.toList

instance (s suffix : String) : Decidable (HasSuffix s suffix) :=
  inferInstanceAs (Decidable (_ <:+ _))

def getBackupGcsPath (backup : Backup) : String :=
  let gcsPath := backup.spec.gcsPath
  if backup.spec.gcsDir ≠ "" then
    let gcsPath := if ¬ HasSuffix backup.spec.gcsDir "/" then backup.spec.gcsDir ++ "/" else gcsPath
    gcsPath ++ backup.name
  else gcsPath

def typeText : BackupType → String
  | .unset => ""
  | .snapshot => "Snapshot"
  | .physical => "Physical"
  | .logical => "Logical"

/-- The parameters of the agent that decide where it works. -/
structure Params where
  localPath : String
  gcsPath : String
  backupTag : String
  deriving DecidableEq, Repr

section Controllers

variable (backup : Backup)

/-- The request of `physicalBackup.create`. -/
def createParams : Params := ⟨backup.spec.localPath, backup.spec.gcsPath, backup.backupTime⟩

/-- The request of `physicalBackup.delete`. -/
def deleteParams : Params := ⟨backup.spec.localPath, getBackupGcsPath backup, backup.backupTime⟩

/-- The request of `restorePhysical`, which has no use for the tag. -/
def restoreParams : Params := ⟨backup.spec.localPath, backup.spec.gcsPath, ""⟩

/-- Why `reconcileVerifyExists` does not support the backup. -/
def verifyErrMsgs : List String :=
  (if backup.spec.type ≠ .physical then
    [typeText backup.spec.type ++ " backup does not support VerifyExists mode"] else []) ++
  (if getBackupGcsPath backup = "" then
    ["Either .spec.gcsPath or .spec.gcsDir must be specified, " ++
      "VerifyExists mode only support GCS based physical backup"] else [])

/-- The path that `reconcileVerifyExists` asks for. -/
def verifyRequest : Except (List String) String :=
  if verifyErrMsgs backup = [] then .ok backup.spec.gcsPath else .error (verifyErrMsgs backup)

/-- What `reconcileBackupCreation` writes to `Status.GcsPath` at the end. -/
def statusGcsPath : String := getBackupGcsPath backup

end Controllers

/-- A place in cloud storage or a directory of the instance. -/
inductive Location where
  | gcs (path : String)
  | dir (path : String)
  deriving DecidableEq, Repr

section Agent

def defaultRMANDir : String := "/u03/app/oracle/rman"

def localDir (localPath : String) : String := if localPath ≠ "" then localPath else defaultRMANDir

/-- The place behind a GCS path, or else the directory on the instance. -/
def location (gcsPath localPath : String) : Location :=
  if gcsPath = "" then .dir (localDir localPath) else .gcs gcsPath

/-- `PhysicalBackup`: a backup to GCS only passes through the staging directory. -/
def physicalBackup (p : Params) : Location := location p.gcsPath p.localPath

/-- `PhysicalRestore`: what is on GCS is downloaded first. -/
def physicalRestore (p : Params) : Location := location p.gcsPath p.localPath

/-- `PhysicalBackupDelete`: without a path RMAN finds the pieces by their tag, in the directory
that they were written to. -/
def physicalBackupDelete (p : Params) : Location := location p.gcsPath p.localPath

end Agent

/-- The place that a reader of the status finds. -/
def statusLocation (backup : Backup) : Location :=
  location (statusGcsPath backup) backup.spec.localPath

/-- A directory joined with the name of what lies in it. -/
def joinDir (dir name : String) : String :=
  if HasSuffix dir "/" then dir ++ name else dir ++ "/" ++ name

/-- All operations address one place, and it is the one that `GcsDir` asks for. -/
structure SameLocation (backup : Backup) : Prop where
  status : statusLocation backup = physicalBackup (createParams backup)
  verify : ∀ path, verifyRequest backup = .ok path →
    Location.gcs path = physicalBackup (createParams backup)
  restore : physicalRestore (restoreParams backup) = physicalBackup (createParams backup)
  delete : physicalBackupDelete (deleteParams backup) = physicalBackup (createParams backup)
  gcsDir : backup.spec.gcsDir ≠ "" →
    physicalBackup (createParams backup) = .gcs (joinDir backup.spec.gcsDir backup.name)

section

variable {backup : Backup}

theorem getBackupGcsPath_of_noDir (h : backup.spec.gcsDir = "") :
    getBackupGcsPath backup = backup.spec.gcsPath := by
  simp [getBackupGcsPath, h]

theorem getBackupGcsPath_of_noSlash (h : backup.spec.gcsDir ≠ "")
    (hs : ¬ HasSuffix backup.spec.gcsDir "/") :
    getBackupGcsPath backup = joinDir backup.spec.gcsDir backup.name := by
  simp [getBackupGcsPath, joinDir, h, hs]

/-- A slash at the end of `GcsDir` makes the function forget it. -/
theorem getBackupGcsPath_of_slash (hs : HasSuffix backup.spec.gcsDir "/") :
    getBackupGcsPath backup = backup.spec.gcsPath ++ backup.name := by
  have hdir : backup.spec.gcsDir ≠ "" := by
    intro h
    rw [h] at hs
    revert hs
    decide
  simp [getBackupGcsPath, hdir, hs]

theorem joinDir_ne_empty {dir : String} (h : dir ≠ "") (name : String) : joinDir dir name ≠ "" := by
  unfold joinDir
  split <;> simp [String.append_eq_empty_iff, h]

theorem location_eq_gcs {gcsPath localPath path : String}
    (h : location gcsPath localPath = .gcs path) : gcsPath = path := by
  unfold location at h
  split at h
  · cases h
  · exact Location.gcs.inj h

theorem verifyRequest_eq_ok {path : String} (h : verifyRequest backup = .ok path) :
    path = backup.spec.gcsPath ∧ getBackupGcsPath backup ≠ "" := by
  unfold verifyRequest at h
  split at h
  · next hnil =>
    refine ⟨(Except.ok.inj h).symm, fun hempty => ?_⟩
    simp [verifyErrMsgs, hempty] at hnil
  · cases h

theorem SameLocation.of_eq (h : getBackupGcsPath backup = backup.spec.gcsPath)
    (hdir : backup.spec.gcsDir ≠ "" →
      backup.spec.gcsPath = joinDir backup.spec.gcsDir backup.name) :
    SameLocation backup where
  status := by rw [statusLocation, statusGcsPath, h]; rfl
  verify := by
    intro path hp
    obtain ⟨rfl, hne⟩ := verifyRequest_eq_ok hp
    have hsome : backup.spec.gcsPath ≠ "" := h ▸ hne
    exact (if_neg hsome).symm
  restore := rfl
  delete := by rw [physicalBackupDelete, deleteParams, h]; rfl
  gcsDir := by
    intro hne
    have hpath := hdir hne
    have hsome : backup.spec.gcsPath ≠ "" := hpath ▸ joinDir_ne_empty hne _
    rw [← hpath]
    exact if_neg hsome

end

theorem sameLocation_iff (backup : Backup) :
    SameLocation backup ↔ backup.spec.gcsDir = "" ∨
      backup.spec.gcsPath = joinDir backup.spec.gcsDir backup.name ∧
        (¬ HasSuffix backup.spec.gcsDir "/" ∨ backup.name = "") := by
  constructor
  · intro h
    by_cases hdir : backup.spec.gcsDir = ""
    · exact .inl hdir
    right
    have hcreate := h.gcsDir hdir
    have hpath : backup.spec.gcsPath = joinDir backup.spec.gcsDir backup.name :=
      location_eq_gcs hcreate
    refine ⟨hpath, ?_⟩
    by_cases hs : HasSuffix backup.spec.gcsDir "/"
    · right
      -- the deletion appends the name once more
      have hdelete : getBackupGcsPath backup = joinDir backup.spec.gcsDir backup.name :=
        location_eq_gcs (h.delete.trans hcreate)
      rw [getBackupGcsPath_of_slash hs, ← hpath] at hdelete
      simpa using hdelete
    · exact .inl hs
  · intro h
    by_cases hdir : backup.spec.gcsDir = ""
    · exact .of_eq (getBackupGcsPath_of_noDir hdir) fun hne => absurd hdir hne
    · obtain ⟨hpath, hs⟩ := h.resolve_left hdir
      refine .of_eq ?_ fun _ => hpath
      by_cases hslash : HasSuffix backup.spec.gcsDir "/"
      · have hname : backup.name = "" := hs.resolve_left (not_not.mpr hslash)
        rw [getBackupGcsPath_of_slash hslash, hname, String.append_empty]
      · rw [getBackupGcsPath_of_noSlash hdir hslash, hpath]

/-- A backup for a directory is created on the instance, while its status and its deletion name
a path below the directory. -/
theorem gcsDir_backup_split :
    ¬ SameLocation ⟨"nightly", ⟨.physical, "", "gs://bk/backups", ""⟩, "20210913100000"⟩ := by
  intro h
  have hdelete := h.delete
  revert hdelete
  decide

end ElCarro.PhysicalBackup
