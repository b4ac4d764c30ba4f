import ElCarro.Instance.Building

/-! # Patching attempts and their snapshots

An attempt begins when the patching machine starts to snapshot the disks. The
snapshots it takes and those it sees ready can be read off the acts; no other
part of the reconciler adds to them.
-/

namespace ElCarro.Instance.Reconciler

open GoTime K8s Api Flow

structure Attempt where
  backupID : String
  disks : List DiskSpec
  taken : List String
  seen : List String

/-- The last attempt that has begun, from the acts. -/
def attempt : List Act → Option Attempt
  | [] => none
  | .beginBackup backupID disks :: _ => some ⟨backupID, disks, [], []⟩
  | .takeSnapshot name :: older =>
    (attempt older).map fun a => { a with taken := name :: a.taken }
  | .seeReady name :: older => (attempt older).map fun a => { a with seen := name :: a.seen }
  | .applySts _ _ _ _ :: older => attempt older
  | .deleteSts _ :: older => attempt older
  | .deletePvc _ _ _ :: older => attempt older

/-- The act belongs to the snapshots of an attempt. -/
def Act.ofBackup : Act → Bool
  | .beginBackup _ _ | .takeSnapshot _ | .seeReady _ => true
  | .applySts _ _ _ _ | .deleteSts _ | .deletePvc _ _ _ => false

/-- A disk of the list has this name. -/
def Named (disks : List DiskSpec) (name : String) : Prop := ∃ disk ∈ disks, disk.name = name

/-- Every disk of the second list has its name in the first one. -/
def Covers (disks disks' : List DiskSpec) : Prop := ∀ disk ∈ disks', Named disks disk.name

instance (disks : List DiskSpec) (name : String) : Decidable (Named disks name) :=
  inferInstanceAs (Decidable (∃ disk ∈ disks, disk.name = name))

instance (disks disks' : List DiskSpec) : Decidable (Covers disks disks') :=
  inferInstanceAs (Decidable (∀ disk ∈ disks', Named disks disk.name))

/-- The snapshot of a status without an error says whether it is ready. -/
def Decided (snapshots : Finmap fun _ : String => VolumeSnapshot) (backupID : String)
    (disks : List DiskSpec) : Prop :=
  ∀ disk ∈ disks, ∀ snap ∈ snapshots.lookup (snapshotName backupID disk.name),
    ∀ st ∈ snap.status, st.error = none → st.readyToUse ≠ none

instance (snapshots : Finmap fun _ : String => VolumeSnapshot) (backupID : String)
    (disks : List DiskSpec) : Decidable (Decided snapshots backupID disks) := by
  unfold Decided
  infer_instance

theorem snapshotName_injective {backupID a b : String}
    (h : snapshotName backupID a = snapshotName backupID b) : mountOf a = mountOf b := by
  unfold snapshotName at h
  have h := congrArg String.toList h
  simp only [String.toList_append, List.append_assoc, List.append_cancel_left_eq] at h
  exact String.toList_inj.mp h

theorem fullPVCName_of_snapshotName {backupID instName a b : String}
    (h : snapshotName backupID a = snapshotName backupID b) :
    fullPVCName instName a = fullPVCName instName b := by
  unfold fullPVCName pvcName
  rw [snapshotName_injective h]

section Loops

variable {env : Env} {s : Session} {R : Result → Session → Prop} {backupID : String}
  {disks : List DiskSpec}

/-- What taking snapshots of some disks leaves behind, however far it gets. -/
structure Taking (backupID : String) (disks : List DiskSpec) (s t : Session) : Prop where
  stored : t.stored = s.stored
  mem : t.mem = s.mem
  acts : ∃ names : List String, t.acts = names.map Act.takeSnapshot ++ s.acts ∧
    ∀ name ∈ names, ∃ disk ∈ disks, name = snapshotName backupID disk.name

/-- There is a snapshot for the disk, and it is of the claim of the disk. -/
def SnapshotOf (backupID instName : String) (w : World) (disk : DiskSpec) : Prop :=
  ∃ snap, w.snapshots.lookup (snapshotName backupID disk.name) = some snap ∧
    snap.pvc = fullPVCName instName disk.name

theorem Taking.refl : Taking backupID disks s s := ⟨rfl, rfl, [], rfl, by simp⟩

theorem Taking.trans {disk : DiskSpec} {t u : Session} (h : Taking backupID [disk] s t)
    (h' : Taking backupID disks t u) : Taking backupID (disk :: disks) s u := by
  obtain ⟨names, hacts, hnames⟩ := h.acts
  obtain ⟨names', hacts', hnames'⟩ := h'.acts
  refine ⟨h'.stored.trans h.stored, h'.mem.trans h.mem, names' ++ names, ?_, ?_⟩
  · rw [hacts', hacts, List.map_append, List.append_assoc]
  · intro name hname
    rcases List.mem_append.mp hname with hname | hname
    · obtain ⟨d, hd, rfl⟩ := hnames' name hname
      exact ⟨d, List.mem_cons_of_mem _ hd, rfl⟩
    · obtain ⟨d, hd, rfl⟩ := hnames name hname
      exact ⟨d, by rw [List.mem_singleton.mp hd]; exact List.mem_cons_self, rfl⟩

/-- The session after a served request for one snapshot. -/
def snapshotTaken (name pvc : String) (s : Session) : Session :=
  { s with
    snapshots := s.snapshots.insert name
      { (s.snapshots.lookup name).getD (.new pvc) with pvc := pvc }
    acts := .takeSnapshot name :: s.acts }

theorem taking_snapshotTaken {disk : DiskSpec} {pvc : String} :
    Taking backupID [disk] s (snapshotTaken (snapshotName backupID disk.name) pvc s) := by
  refine ⟨rfl, rfl, [snapshotName backupID disk.name], rfl, ?_⟩
  intro name hname
  exact ⟨disk, List.mem_singleton_self disk, List.mem_singleton.mp hname⟩

theorem snapshotOf_snapshotTaken {instName : String} {disk disk' : DiskSpec}
    (h : disk' = disk ∨ SnapshotOf backupID instName s.toWorld disk') :
    SnapshotOf backupID instName (snapshotTaken (snapshotName backupID disk.name)
      (fullPVCName instName disk.name) s).toWorld disk' := by
  by_cases hname : snapshotName backupID disk'.name = snapshotName backupID disk.name
  · refine ⟨_, by rw [hname]; exact Finmap.lookup_insert _, ?_⟩
    exact (fullPVCName_of_snapshotName hname).symm
  · rcases h with rfl | ⟨snap, hsnap, hpvc⟩
    · exact absurd rfl hname
    · exact ⟨snap, (Finmap.lookup_insert_of_ne _ hname).trans hsnap, hpvc⟩

/-- However far it gets, the loop takes snapshots of these disks only; when it succeeds, all of
them are there. -/
theorem takeSnapshots_spec :
    wp (takeSnapshots env backupID disks)
      (fun out t => Taking backupID disks s t ∧
        ∀ disk, (out = .ok ∧ disk ∈ disks) ∨ SnapshotOf backupID s.mem.name s.toWorld disk →
          SnapshotOf backupID s.mem.name t.toWorld disk) R s := by
  induction disks generalizing s with
  | nil =>
    refine ⟨.refl, ?_⟩
    rintro disk (⟨-, hdisk⟩ | hdisk)
    · cases hdisk
    · exact hdisk
  | cons disk rest ih =>
    refine wp_bind.mpr (wp_get.mpr (wp_bind.mpr ?_))
    refine wp_effect_call ?_ ?_ ?_
    · intro hcall
      refine ⟨.refl, ?_⟩
      rintro disk' (⟨hok, -⟩ | hdisk)
      · exact absurd hok hcall
      · exact hdisk
    · intro hcall
      refine ⟨taking_snapshotTaken.trans .refl, ?_⟩
      rintro disk' (⟨hok, -⟩ | hdisk)
      · exact absurd hok hcall
      · exact snapshotOf_snapshotTaken (.inr hdisk)
    · intro _
      refine ih.mono ?_ fun _ _ h => h
      rintro out t ⟨htaking, hall⟩
      refine ⟨taking_snapshotTaken.trans htaking, ?_⟩
      intro disk' hdisk
      refine hall disk' ?_
      rcases hdisk with ⟨hok, hdisk⟩ | hdisk
      · rcases List.mem_cons.mp hdisk with rfl | hdisk
        · exact .inr (snapshotOf_snapshotTaken (.inl rfl))
        · exact .inl ⟨hok, hdisk⟩
      · exact .inr (snapshotOf_snapshotTaken (.inr hdisk))

/-- The snapshot of the disk is ready to use. -/
def SeenReady (backupID : String) (w : World) (disk : DiskSpec) : Prop :=
  ∃ snap st, w.snapshots.lookup (snapshotName backupID disk.name) = some snap ∧
    snap.status = some st ∧ st.readyToUse = some true

/-- The loop only reads. If every snapshot says whether it is ready, the loop is done only once
it has seen all of them ready. -/
theorem checkSnapshots_spec :
    wp (checkSnapshots env backupID disks)
      (fun poll t => ∃ names : List String,
        t = { s with acts := names.map Act.seeReady ++ s.acts } ∧
        (poll = .done → Decided s.snapshots backupID disks → ∀ disk ∈ disks,
          snapshotName backupID disk.name ∈ names ∧ SeenReady backupID s.toWorld disk)) R s := by
  induction disks generalizing s with
  | nil => exact ⟨[], rfl, by simp⟩
  | cons disk rest ih =>
    have hleave : ∀ poll : Poll, poll ≠ .done → ∃ names : List String,
        s = { s with acts := names.map Act.seeReady ++ s.acts } ∧
        (poll = .done → Decided s.snapshots backupID (disk :: rest) → ∀ d ∈ disk :: rest,
          snapshotName backupID d.name ∈ names ∧ SeenReady backupID s.toWorld d) :=
      fun poll hpoll => ⟨[], rfl, fun h => absurd h hpoll⟩
    refine wp_bind.mpr (wp_get.mpr ?_)
    dsimp only
    split
    · exact hleave _ (by decide)
    · split
      · exact hleave _ (by decide)
      · exact hleave _ (by decide)
      · exact hleave _ (by decide)
      · exact hleave _ (by decide)
      · -- a status that does not say, which the hypothesis excludes
        next hlook =>
        refine ih.mono ?_ fun _ _ h => h
        rintro poll t ⟨names, rfl, -⟩
        refine ⟨names, rfl, fun _ hdec => ?_⟩
        exact absurd rfl (hdec disk List.mem_cons_self _ hlook _ rfl rfl)
      · next hlook =>
        refine wp_bind.mpr (wp_modify.mpr (ih.mono ?_ fun _ _ h => h))
        rintro poll t ⟨names, rfl, hall⟩
        refine ⟨names ++ [snapshotName backupID disk.name], by simp, fun hdone hdec => ?_⟩
        intro d hd
        rcases List.mem_cons.mp hd with rfl | hd
        · exact ⟨by simp, _, _, hlook, rfl, rfl⟩
        · obtain ⟨hmem, hseen⟩ := hall hdone (fun d hd => hdec d (List.mem_cons_of_mem _ hd)) d hd
          exact ⟨List.mem_append_left _ hmem, hseen⟩

end Loops

section Acts

variable {acts : List Act}

theorem attempt_take (names : List String) :
    attempt (names.map Act.takeSnapshot ++ acts) =
      (attempt acts).map fun a => { a with taken := names ++ a.taken } := by
  induction names with
  | nil => simp
  | cons name rest ih =>
    simp only [List.map_cons, List.cons_append, attempt, ih, Option.map_map]
    rfl

theorem attempt_see (names : List String) :
    attempt (names.map Act.seeReady ++ acts) =
      (attempt acts).map fun a => { a with seen := names ++ a.seen } := by
  induction names with
  | nil => simp
  | cons name rest ih =>
    simp only [List.map_cons, List.cons_append, attempt, ih, Option.map_map]
    rfl

theorem attempt_append {new : List Act} (h : ∀ act ∈ new, act.ofBackup = false) :
    attempt (new ++ acts) = attempt acts := by
  induction new with
  | nil => rfl
  | cons act rest ih =>
    have hrest := ih fun act hact => h act (List.mem_cons_of_mem _ hact)
    have hact := h act List.mem_cons_self
    cases act with
    | beginBackup backupID disks => cases hact
    | takeSnapshot name => cases hact
    | seeReady name => cases hact
    | applySts path created sts active => exact hrest
    | deleteSts path => exact hrest
    | deletePvc path pvc snapshot => exact hrest

theorem Work.not_ofBackup {images : StrMap} {paths : Path → Prop} {s : Session} {act : Act}
    (h : Work images paths s act) : act.ofBackup = false := by
  cases h <;> rfl

end Acts

end ElCarro.Instance.Reconciler
