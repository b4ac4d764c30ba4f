import ElCarro.Backup.Reconcile
import ElCarro.Instance.DiskNames

/-! # The status of a snapshot backup

A snapshot backup creates one VolumeSnapshot for each disk. Its status puts together a
selector for the labels of two of them, but drops what `Add` returns: it looks at every
snapshot of the namespace, and never at whether its own are among them.
-/

namespace ElCarro.Backups.SnapshotBackup

open K8s Api Flow
open Instance (LetterCase diskSpecs snapshotName fullPVCName)
open Instance.Reconciler (SnapshotStatus)

section Selectors

/-- A label has one of these values; `In` and `Equals` of a selector. -/
structure Requirement where
  key : String
  values : List String
  deriving DecidableEq, Repr

abbrev Selector := List Requirement

/-- `labels.NewRequirement`, which refuses what is not a key or a value of a label. -/
def newRequirement (validate : String → List String → Option String) (key : String)
    (values : List String) : Except String Requirement :=
  match validate key values with
  | some err => .error err
  | none => .ok ⟨key, values⟩

/-- `Add` gives back a new selector. -/
def Selector.add (sel : Selector) (r : Requirement) : Selector := sel ++ [r]

def Selector.matches (sel : Selector) (labels : StrMap) : Bool :=
  sel.all fun r => (labels.lookup r.key).any (r.values.contains ·)

end Selectors

/-- A VolumeSnapshot as a list has it. -/
structure Item where
  name : String
  labels : StrMap
  status : Option SnapshotStatus
  deriving DecidableEq

def Item.ReadyToUse (vs : Item) : Prop := vs.status = some ⟨none, some true⟩

instance (vs : Item) : Decidable vs.ReadyToUse :=
  inferInstanceAs (Decidable (vs.status = some ⟨none, some true⟩))

/-- The VolumeSnapshots of a namespace, in the order in which they are listed. -/
structure Listed where
  items : List Item
  unique : (items.map Item.name).Nodup

/-- The labels of the snapshots of the two default disks. -/
def vsLabels (backup : Backup) : List String :=
  [backup.status.backupID ++ "-u02", backup.status.backupID ++ "-u03"]

/-- `snapshotBackup.status`, with the snapshots of the namespace of the Backup. -/
def status (validate : String → List String → Option String) (volSnaps : Except String Listed)
    (backup : Backup) : Option Progress :=
  let sel : Selector := []
  match newRequirement validate "name" (vsLabels backup) with
  | .error err => some ⟨false, some err⟩
  | .ok req1 =>
    -- neither of the two selectors that `Add` returns is kept
    let _ := sel.add req1
    match newRequirement validate "namespace" [backup.ns] with
    | .error err => some ⟨false, some err⟩
    | .ok req2 =>
      let _ := sel.add req2
      match volSnaps with
      | .error err => some ⟨false, some err⟩
      | .ok volSnaps =>
        match volSnaps.items.filter (sel.matches ·.labels) with
        | [] => some ⟨false, some "no volume snapshots found"⟩
        | vs :: rest => pollSnapshots backup.ns ((vs :: rest).map fun vs => (vs.name, vs.status))

/-- The names that `create` gives to the snapshots of the disks. -/
def snapshotNames (c : LetterCase) (backup : Backup) (disks : List DiskSpec) : List String :=
  disks.map fun disk =>
    backup.status.backupID ++ "-" ++ (c.pvcNameAndMount backup.instName disk.name).2

/-- Both requirements can be made. -/
def Accepted (validate : String → List String → Option String) (backup : Backup) : Prop :=
  validate "name" (vsLabels backup) = none ∧ validate "namespace" [backup.ns] = none

/-- The backup is reported done exactly when each of its snapshots is there and ready to use. -/
def ReportsOwn (c : LetterCase) (validate : String → List String → Option String)
    (volSnaps : Listed) (backup : Backup) (disks : List DiskSpec) : Prop :=
  status validate (.ok volSnaps) backup = some ⟨true, none⟩ ↔
    ∀ name ∈ snapshotNames c backup disks, ∃ vs ∈ volSnaps.items, vs.name = name ∧ vs.ReadyToUse

/-- What the other snapshots of the namespace have to be like. -/
structure Undisturbed (c : LetterCase) (validate : String → List String → Option String)
    (volSnaps : Listed) (backup : Backup) (disks : List DiskSpec) : Prop where
  missing : (∃ name ∈ snapshotNames c backup disks, ∀ vs ∈ volSnaps.items, vs.name ≠ name) →
    ¬ Accepted validate backup ∨ volSnaps.items = [] ∨ ∃ vs ∈ volSnaps.items, ¬ vs.ReadyToUse
  ready : (∀ name ∈ snapshotNames c backup disks,
      ∃ vs ∈ volSnaps.items, vs.name = name ∧ vs.ReadyToUse) →
    Accepted validate backup ∧ volSnaps.items ≠ [] ∧
      ∀ vs ∈ volSnaps.items, vs.name ∉ snapshotNames c backup disks → vs.ReadyToUse

theorem pollSnapshots_done_iff {ns : String} {snaps : List (String × Option SnapshotStatus)} :
    pollSnapshots ns snaps = some ⟨true, none⟩ ↔
      ∀ vs ∈ snaps, vs.2 = some ⟨none, some true⟩ := by
  induction snaps with
  | nil => simp [pollSnapshots]
  | cons vs rest ih =>
    rcases vs with ⟨name, _ | ⟨_ | message, _ | _ | _⟩⟩ <;> simp [pollSnapshots, ih]

/-- The selector without requirements selects everything. -/
theorem filter_matches_nil (items : List Item) :
    items.filter (Selector.matches [] ·.labels) = items := by
  simp [Selector.matches]

theorem status_done_iff {validate : String → List String → Option String} {volSnaps : Listed}
    {backup : Backup} : status validate (.ok volSnaps) backup = some ⟨true, none⟩ ↔
      Accepted validate backup ∧ volSnaps.items ≠ [] ∧
        ∀ vs ∈ volSnaps.items, vs.ReadyToUse := by
  unfold status newRequirement Accepted
  cases hname : validate "name" (vsLabels backup) with
  | some err => simp
  | none =>
    cases hns : validate "namespace" [backup.ns] with
    | some err => simp
    | none =>
      simp only [filter_matches_nil, true_and, and_self]
      cases volSnaps.items with
      | nil => simp
      | cons vs rest =>
        rw [pollSnapshots_done_iff]
        simp [Item.ReadyToUse]

theorem reportsOwn_iff_undisturbed (c : LetterCase)
    (validate : String → List String → Option String) (volSnaps : Listed) (backup : Backup)
    (disks : List DiskSpec) :
    ReportsOwn c validate volSnaps backup disks ↔
      Undisturbed c validate volSnaps backup disks := by
  rw [ReportsOwn, status_done_iff]
  constructor
  · intro h
    constructor
    · rintro ⟨name, hname, hnone⟩
      by_contra hall
      simp only [not_or, not_not, not_exists, not_and] at hall
      obtain ⟨vs, hvs, heq, -⟩ := h.mp ⟨hall.1, hall.2.1, hall.2.2⟩ name hname
      exact hnone vs hvs heq
    · intro hown
      obtain ⟨hacc, hne, hall⟩ := h.mpr hown
      exact ⟨hacc, hne, fun vs hvs _ => hall vs hvs⟩
  · intro h
    constructor
    · rintro ⟨hacc, hne, hall⟩ name hname
      by_contra hnone
      have hmissing : ∀ vs ∈ volSnaps.items, vs.name ≠ name := by
        intro vs hvs heq
        exact hnone ⟨vs, hvs, heq, hall vs hvs⟩
      rcases h.missing ⟨name, hname, hmissing⟩ with hn | hn | ⟨vs, hvs, hn⟩
      · exact hn hacc
      · exact hne hn
      · exact hn (hall vs hvs)
    · intro hown
      obtain ⟨hacc, hne, hothers⟩ := h.ready hown
      refine ⟨hacc, hne, fun vs hvs => ?_⟩
      by_cases hname : vs.name ∈ snapshotNames c backup disks
      · obtain ⟨vs', hvs', heq, hready⟩ := hown vs.name hname
        obtain rfl := List.inj_on_of_nodup_map volSnaps.unique hvs' hvs heq
        exact hready
      · exact hothers vs hvs hname

/-- The status that the reconcile of a Backup polls. -/
theorem pollSnapshotBackup_eq {validate : String → List String → Option String}
    {volSnaps : Listed} {backup : Backup} {env : Env} (hacc : Accepted validate backup)
    (henv : env.volSnaps = .ok (volSnaps.items.map fun vs => (vs.name, vs.status))) :
    pollSnapshotBackup env backup = status validate (.ok volSnaps) backup := by
  simp only [status, newRequirement, hacc.1, hacc.2, filter_matches_nil, pollSnapshotBackup,
    henv]
  cases volSnaps.items <;> rfl

section Create

/-- With the letters of ASCII these are the names under which the controller asks for them. -/
theorem snapshotNames_ascii (backup : Backup) (disks : List DiskSpec) :
    snapshotNames .ascii backup disks =
      disks.map fun disk => snapshotName backup.status.backupID disk.name := by
  simp only [snapshotNames, LetterCase.pvcNameAndMount_ascii, snapshotName]

/-- `create` adds a snapshot for each disk, and no other. -/
theorem wp_snapshotDisks {env : Env} {backupID instName : String} {disks : List DiskSpec}
    {s : Session} (hns : s.mem.ns = s.world.stored.ns) :
    wp (snapshotDisks env backupID instName disks)
      (fun ok t => ok = true → ∀ name, name ∈ t.world.snapshots ↔
        name ∈ s.world.snapshots ∨ name ∈ disks.map fun disk => snapshotName backupID disk.name)
      (fun _ _ => False) s := by
  induction disks generalizing s with
  | nil => simp [snapshotDisks]
  | cons disk rest ih =>
    rw [snapshotDisks, wp_bind, wp_when]
    constructor
    · intro _
      rw [wp_modify]
      simp only [hns, ne_eq, not_true_eq_false, if_false]
      split
      · refine (ih ?_).mono ?_ fun _ _ h => h
        · exact hns
        · intro ok t h hok name
          rw [h hok name, Finmap.mem_insert]
          simp only [List.map_cons, List.mem_cons]
          tauto
      · simp
    · intro hserved
      split
      · next hok => simp_all [reached, Instance.Reconciler.Outcome.served]
      · simp

end Create

section Sample

/-- A snapshot backup of `mydb` that is in progress. -/
def inProgressBackup : Backup where
  ns := "db"
  name := "nightly"
  uid := "2"
  labels := none
  annotations := none
  deletionTimestamp := none
  hasFinalizer := true
  spec := ⟨.snapshot, "", "", ""⟩
  instName := "mydb"
  mode := .unset
  subtype := .unset
  volumeSnapshotClass := ""
  status :=
    ⟨.inProgress, some ⟨.false, some .backupInProgress, "Starting to create a backup.", 0⟩,
      "mydb-20220101-snap-7", "20220101000000", some 0, none, ""⟩

def snapshotItem (name : String) (readyToUse : Bool) : Item :=
  ⟨name, Finmap.singleton "name" name, some ⟨none, some readyToUse⟩⟩

/--
A snapshot of another backup that is not ready yet holds this one up, and one that is ready
is enough for this one to be done, without any snapshot of its own.
-/
theorem other_snapshots_decide :
    ¬ ReportsOwn .ascii (fun _ _ => none)
      ⟨[snapshotItem "mydb-20220101-snap-7-u02" true, snapshotItem "mydb-20220101-snap-7-u03" true,
        snapshotItem "other-20220101-snap-9-u02" false], by decide⟩
      inProgressBackup Instance.defaultDisks ∧
    ¬ ReportsOwn .ascii (fun _ _ => none)
      ⟨[snapshotItem "other-20220101-snap-9-u02" true], by decide⟩
      inProgressBackup Instance.defaultDisks := by
  constructor
  · intro h
    have hdone := h.mpr (by decide)
    revert hdone
    decide
  · intro h
    have hown := h.mp (by decide)
    revert hown
    decide

end Sample

end ElCarro.Backups.SnapshotBackup
