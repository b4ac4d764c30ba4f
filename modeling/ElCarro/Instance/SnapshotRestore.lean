import ElCarro.Instance.Disks
import ElCarro.Instance.FindBackup

/-! # Data sources of a snapshot restore

The Backup of a request is chosen and checked from one set of fields, the data
sources of the new claims are named from another one. They agree exactly for
requests that name their Backup by ID.
-/

namespace ElCarro.Instance

open GoTime K8s Api

/-- `restoreSnapshot`: the StatefulSet for the restore section of the instance. -/
def restoreSnapshot (inst : Instance) (sp : StsParams) : Except String StatefulSet :=
  constructSTSandPVCs { sp with restore := inst.spec.restore }

/-- The state machine goes on with the Backup: a snapshot Backup that is Ready. -/
def Accepts (cat : Catalog) (inst : Instance) (restore : RestoreSpec) (b : Backup) : Prop :=
  inst.spec.restore = some restore ∧ restore.backupType = .snapshot ∧
  findBackupForRestore cat inst restore = .ok b ∧
  conditionStatusEquals (findCondition b.status.conditions .ready) .true = true

/-- The snapshot that the backup controller takes of a disk, as a namespace and a reference. -/
def snapshotOf (b : Backup) (disk : DiskSpec) : String × DataSource :=
  (b.ns, volumeSnapshot (snapshotName b.status.backupID disk.name))

/-- The claim template of every disk is filled from the snapshot of the Backup for that disk. -/
def SourcedFrom (b : Backup) (disks : List DiskSpec) (pvcs : List PVC) : Prop :=
  List.Forall₂ (fun disk pvc => pvc.dataSource.map (Prod.mk pvc.ns) = some (snapshotOf b disk))
    disks pvcs

section

variable {cat : Catalog} {inst : Instance} {restore : RestoreSpec} {b : Backup} {sp : StsParams}
  {sts : StatefulSet}

theorem sourcedFrom_of_backupID (hinst : sp.inst.ns = inst.ns) (hacc : Accepts cat inst restore b)
    (hid : restore.backupID ≠ "") (hsts : restoreSnapshot inst sp = .ok sts) :
    SourcedFrom b sp.disks sts.volumeClaimTemplates := by
  obtain ⟨hrestore, -, hfind, -⟩ := hacc
  obtain ⟨hns, hbid⟩ := findBackupForRestore_backupID hid hfind
  refine (constructSTSandPVCs_ok hsts).2.2.2.imp ?_
  intro disk pvc hpvc
  obtain ⟨hpns, -, hsrc⟩ := newPVC_ok hpvc
  have hsrc' : pvc.dataSource =
      some (volumeSnapshot (snapshotName restore.backupID disk.name)) := by
    rw [hsrc]
    simp [dataSourceOf, hrestore, hid]
  have hpns' : pvc.ns = b.ns := by rw [hpns, hns]; exact hinst
  rw [hsrc', snapshotOf, hbid, hpns']
  rfl

theorem not_sourcedFrom_of_no_backupID (hrestore : inst.spec.restore = some restore)
    (hid : restore.backupID = "") (hdisks : sp.disks ≠ [])
    (hsts : restoreSnapshot inst sp = .ok sts) :
    ¬ SourcedFrom b sp.disks sts.volumeClaimTemplates := by
  intro hsrc
  have hpvcs := (constructSTSandPVCs_ok hsts).2.2.2
  obtain ⟨disk, rest, hd⟩ := List.exists_cons_of_ne_nil hdisks
  unfold SourcedFrom at hsrc
  dsimp only at hpvcs
  rw [hd] at hpvcs hsrc
  generalize sts.volumeClaimTemplates = pvcs at hpvcs hsrc
  cases hpvcs with
  | cons hpvc _ =>
    cases hsrc with
    | cons hs _ =>
      rw [(newPVC_ok hpvc).2.2] at hs
      simp [dataSourceOf, hrestore, hid] at hs

end

/--
For every snapshot restore request that the controller accepts, the StatefulSet it creates takes
each disk from the snapshot of the chosen Backup if and only if the request names the Backup by
ID, or the instance has no disks at all.
-/
theorem restoreSnapshot_sourcedFrom_iff (cat : Catalog) (inst : Instance) (restore : RestoreSpec)
    (b : Backup) (sp : StsParams) (sts : StatefulSet) (hinst : sp.inst = inst)
    (hacc : Accepts cat inst restore b) (hsts : restoreSnapshot inst sp = .ok sts) :
    SourcedFrom b sp.disks sts.volumeClaimTemplates ↔ (restore.backupID ≠ "" ∨ sp.disks = []) := by
  constructor
  · intro hsrc
    by_contra hn
    push Not at hn
    exact not_sourcedFrom_of_no_backupID hacc.1 hn.1 hn.2 hsts hsrc
  · rintro (hid | hdisks)
    · exact sourcedFrom_of_backupID (by rw [hinst]) hacc hid hsts
    · have hpvcs := (constructSTSandPVCs_ok hsts).2.2.2
      unfold SourcedFrom
      dsimp only at hpvcs
      rw [hdisks] at hpvcs ⊢
      rw [List.forall₂_nil_left_iff.mp hpvcs]
      exact .nil

section Requests

/-- An instance with two disks and the given restore request. -/
def mydb (restore : RestoreSpec) : Instance :=
  let inst := Instance.blank "db" "mydb"
  { inst with spec := { inst.spec with restore := some restore } }

def readySnapshot : Backup :=
  ⟨"db", "snap1", ∅, ∅, 0, none, .snapshot,
    ⟨.succeeded, [⟨.ready, .true, .backupReady, "", 0⟩], "mydb-20210101-snap-1"⟩, none⟩

def oneSnapshot : Catalog :=
  ⟨[readySnapshot], [], fun _ => none, fun _ => none, none, none, none, none⟩

def byRef : RestoreSpec := ⟨.snapshot, "", some ⟨"db", "snap1"⟩, none, true, 1⟩

def byID : RestoreSpec := ⟨.snapshot, "mydb-20210101-snap-1", none, none, true, 1⟩

def paramsOf (inst : Instance) : StsParams := ⟨inst, ∅, none, diskSpecs inst none, none⟩

/-- A Ready snapshot Backup chosen by reference leaves both disks without a data source. -/
theorem restore_by_reference_unsourced :
    Accepts oneSnapshot (mydb byRef) byRef readySnapshot ∧
      ∃ sts, restoreSnapshot (mydb byRef) (paramsOf (mydb byRef)) = .ok sts ∧
        (sts.volumeClaimTemplates.map fun pvc => (pvc.name, pvc.dataSource)) =
          [("mydb-pvc-u02", none), ("mydb-pvc-u03", none)] ∧
        ¬ SourcedFrom readySnapshot (diskSpecs (mydb byRef) none) sts.volumeClaimTemplates := by
  refine ⟨⟨rfl, rfl, rfl, by decide⟩, _, rfl, by decide, ?_⟩
  have hdisks : (paramsOf (mydb byRef)).disks ≠ [] := by decide
  have hreq : (mydb byRef).spec.restore = some byRef := rfl
  exact not_sourcedFrom_of_no_backupID hreq rfl hdisks rfl

theorem restore_by_id_sourced :
    ∃ sts, restoreSnapshot (mydb byID) (paramsOf (mydb byID)) = .ok sts ∧
      (SourcedFrom readySnapshot (diskSpecs (mydb byID) none) sts.volumeClaimTemplates ↔
        (byID.backupID ≠ "" ∨ diskSpecs (mydb byID) none = [])) :=
  ⟨_, rfl, restoreSnapshot_sourcedFrom_iff oneSnapshot (mydb byID) byID readySnapshot
    (paramsOf (mydb byID)) _ rfl ⟨rfl, rfl, rfl, by decide⟩ rfl⟩

end Requests

end ElCarro.Instance
