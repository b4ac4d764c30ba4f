import ElCarro.Lib.HashedName
import ElCarro.Lib.Rfc3339
import ElCarro.Lib.Strconv
import ElCarro.Backup.Reconcile
import ElCarro.Instance.DiskNames

/-! # Backup IDs

A backup ID has the name of the instance, the date and the nanosecond of its start, but
nothing of the time of the day down to the second. The parts of a Backup's ID are
separated by dashes and can be told apart; those of the snapshots before patching are
written one after the other.
-/

namespace ElCarro.Backups.ID

open GoTime K8s Api
open Instance (LetterCase lastWithID Catalog)
open HashedName (append_sep_inj)

inductive Kind where
  | snap | phys
  /-- The snapshots that are taken before patching. -/
  | patching
  deriving DecidableEq, Repr

def Kind.text : Kind → String
  | .snap => "snap"
  | .phys => "phys"
  | .patching => ""

/-- A backup at its start; the clock is read once for the date and once for the nanosecond. -/
structure Launch where
  kind : Kind
  instName : String
  disks : List DiskSpec
  /-- Minutes east of UTC. -/
  offset : Int
  now : Time
  later : Time
  /-- The name of an object does not end in a dash. -/
  named : ∃ name c, instName.toList = name ++ [c] ∧ c ≠ '-'
  era : 0 ≤ (stamp offset now).year

namespace Launch

variable (l : Launch)

/-- The date in the zone of the operator. -/
def date : Stamp := stamp l.offset l.now

/-- The format `20060102`. -/
def dateText : List Char := yearText l.date.year ++ (pad 2 l.date.month ++ pad 2 l.date.day)

def nanosecond : Nat := (l.later % second).toNat

/-- `generateID` of a Backup, and the ID that `prePatchBackup` makes. -/
def id : String :=
  match l.kind with
  | .patching =>
    "patching-backup-" ++ l.instName ++ String.ofList l.dateText ++ toString l.nanosecond
  | kind =>
    l.instName ++ "-" ++ String.ofList l.dateText ++ "-" ++ kind.text ++ "-" ++
      toString l.nanosecond

/-- The mounts of the disks that the backup takes snapshots of. -/
def mounts (c : LetterCase) : List String :=
  if l.kind = .phys then []
  else l.disks.map fun disk => (c.pvcNameAndMount l.instName disk.name).2

def snapshotNames (c : LetterCase) : List String :=
  (l.mounts c).map fun mount => l.id ++ "-" ++ mount

end Launch

/-- The year, the month and the day of the month. -/
def startDay (l : Launch) : Int × Nat × Nat := (l.date.year, l.date.month, l.date.day)

/-- What the IDs of two backups have in common when they are the same. -/
def SameParts (a b : Launch) : Prop :=
  if a.kind = .patching then
    b.kind = .patching ∧
      a.instName.toList ++ a.dateText ++ Nat.toDigits 10 a.nanosecond =
        b.instName.toList ++ b.dateText ++ Nat.toDigits 10 b.nanosecond
  else a.kind = b.kind ∧ a.instName = b.instName ∧ startDay a = startDay b ∧ a.nanosecond = b.nanosecond

section Text

theorem dash_notMem_toDigits (n : Nat) : '-' ∉ Nat.toDigits 10 n := by
  intro h
  have := Nat.isDigit_of_mem_toDigits (by decide) (by decide) h
  simp at this

variable (l : Launch)

theorem yearText_date : yearText l.date.year = pad 4 l.date.year.natAbs :=
  if_neg (not_lt.mpr l.era)

theorem dash_notMem_dateText : '-' ∉ l.dateText := by
  simp [Launch.dateText, yearText_date, Stamp.not_mem_pad]

theorem eight_le_length_dateText : 8 ≤ l.dateText.length := by
  rw [Launch.dateText, yearText_date]
  simp only [List.length_append, pad, List.length_leftpad]
  omega

theorem length_nanosecond : (Nat.toDigits 10 l.nanosecond).length ≤ 9 := by
  rw [Nat.length_toDigits_le_iff (by decide) (by decide)]
  unfold Launch.nanosecond second Duration
  omega

variable {l} {l' : Launch}

theorem dateText_inj (h : l.dateText = l'.dateText) : startDay l = startDay l' := by
  unfold Launch.dateText at h
  have hlen : ∀ s : Stamp, (pad 2 s.month ++ pad 2 s.day).length = 4 := by
    intro s
    rw [List.length_append, length_pad_two s.month_lt, length_pad_two s.day_lt]
  obtain ⟨hyear, h⟩ := List.append_inj' h ((hlen _).trans (hlen _).symm)
  obtain ⟨hmonth, hday⟩ := List.append_inj h
    ((length_pad_two (Stamp.month_lt _)).trans (length_pad_two (Stamp.month_lt _)).symm)
  unfold startDay
  rw [yearText_inj hyear, pad_inj hmonth, pad_inj hday]

theorem dateText_congr (h : startDay l = startDay l') : l.dateText = l'.dateText := by
  unfold startDay at h
  simp only [Prod.mk.injEq] at h
  unfold Launch.dateText
  rw [h.1, h.2.1, h.2.2]

theorem toList_id_of_patching (h : l.kind = .patching) :
    l.id.toList = "patching-backup-".toList ++
      (l.instName.toList ++ l.dateText ++ Nat.toDigits 10 l.nanosecond) := by
  simp [Launch.id, h]

theorem toList_id (h : l.kind ≠ .patching) :
    l.id.toList = l.instName.toList ++ '-' ::
      (l.dateText ++ '-' :: (l.kind.text.toList ++ '-' :: Nat.toDigits 10 l.nanosecond)) := by
  unfold Launch.id
  split
  · next hk => exact absurd hk h
  · simp

/-- The ID of a Backup has a dash among its last ten characters, that of a patching has not. -/
theorem toList_id_ne_of_patching (h : l.kind = .patching) (h' : l'.kind ≠ .patching) :
    l.id.toList ≠ l'.id.toList := by
  obtain ⟨name, c, hname, hc⟩ := l.named
  intro heq
  rw [toList_id_of_patching h, toList_id h', hname] at heq
  have htail : '-' ∉ c :: (l.dateText ++ Nat.toDigits 10 l.nanosecond) := by
    simp only [List.mem_cons, List.mem_append, not_or]
    exact ⟨hc.symm, dash_notMem_dateText l, dash_notMem_toDigits _⟩
  have hlen : (Nat.toDigits 10 l'.nanosecond).length <
      (c :: (l.dateText ++ Nat.toDigits 10 l.nanosecond)).length := by
    have hdate := eight_le_length_dateText l
    have hns := length_nanosecond l'
    have hpos : 0 < (Nat.toDigits 10 l.nanosecond).length := Nat.length_toDigits_pos
    simp only [List.length_cons, List.length_append]
    omega
  have hsplit : ("patching-backup-".toList ++ name) ++
      (c :: (l.dateText ++ Nat.toDigits 10 l.nanosecond)) =
      (l'.instName.toList ++ '-' :: (l'.dateText ++ '-' :: l'.kind.text.toList)) ++
        '-' :: Nat.toDigits 10 l'.nanosecond := by
    simpa using heq
  rcases List.append_eq_append_iff.mp hsplit with ⟨e, -, he⟩ | ⟨e, -, he⟩
  · exact htail (he ▸ by simp)
  · have hlens := congrArg List.length he
    rw [List.length_append, List.length_cons] at hlens
    obtain rfl : e = [] := List.length_eq_zero_iff.mp (by omega)
    rw [List.nil_append] at he
    exact htail (he ▸ by simp)

theorem kindText_inj {k k' : Kind} (hk : k ≠ .patching) (hk' : k' ≠ .patching)
    (h : k.text.toList = k'.text.toList) : k = k' := by
  cases k <;> cases k' <;> simp_all [Kind.text]

theorem dash_notMem_kindText (k : Kind) : '-' ∉ k.text.toList := by
  cases k <;> decide

/-- The IDs are the same exactly when their parts are. -/
theorem id_eq_iff (a b : Launch) : a.id = b.id ↔ SameParts a b := by
  rw [← String.toList_inj]
  by_cases ha : a.kind = .patching
  · rw [SameParts, if_pos ha]
    by_cases hb : b.kind = .patching
    · rw [toList_id_of_patching ha, toList_id_of_patching hb]
      simp [hb]
    · simp [hb, toList_id_ne_of_patching ha hb]
  · rw [SameParts, if_neg ha]
    by_cases hb : b.kind = .patching
    · have hne : a.kind ≠ b.kind := by
        rw [hb]
        exact ha
      simp [hne, (toList_id_ne_of_patching hb ha).symm]
    · rw [toList_id ha, toList_id hb]
      constructor
      · intro h
        -- the parts are split off at the dashes, the last one first
        obtain ⟨h, hns⟩ := append_sep_inj (dash_notMem_toDigits _) (dash_notMem_toDigits _)
          (show (a.instName.toList ++ '-' :: (a.dateText ++ '-' :: a.kind.text.toList)) ++
              '-' :: Nat.toDigits 10 a.nanosecond =
            (b.instName.toList ++ '-' :: (b.dateText ++ '-' :: b.kind.text.toList)) ++
              '-' :: Nat.toDigits 10 b.nanosecond by simpa using h)
        obtain ⟨h, hkind⟩ := append_sep_inj (dash_notMem_kindText _) (dash_notMem_kindText _)
          (show (a.instName.toList ++ '-' :: a.dateText) ++ '-' :: a.kind.text.toList =
            (b.instName.toList ++ '-' :: b.dateText) ++ '-' :: b.kind.text.toList by
              simpa using h)
        obtain ⟨hname, hdate⟩ :=
          append_sep_inj (dash_notMem_dateText a) (dash_notMem_dateText b) h
        exact ⟨kindText_inj ha hb hkind, String.toList_inj.mp hname, dateText_inj hdate,
          Strconv.toDigits_inj hns⟩
      · rintro ⟨hkind, hname, hday, hns⟩
        rw [hkind, hname, dateText_congr hday, hns]

end Text

section Shared

/-- The ID of the second backup is the one of the first with more after a dash. -/
def Continues (a b : Launch) (more : String) : Prop := b.id = a.id ++ "-" ++ more

/-- A restore by the ID of the one does not find the other, nor do they share a snapshot. -/
structure Distinguishable (c : LetterCase) (a b : Launch) : Prop where
  ids : a.id ≠ b.id
  identified : ∀ (cat : Catalog) ns backup, lastWithID cat ns a.id = some backup →
    backup.status.backupID ≠ b.id
  snapshots : ∀ name ∈ a.snapshotNames c, name ∉ b.snapshotNames c

/-- The parts of the IDs differ, and no mount makes up for the difference. -/
structure Apart (c : LetterCase) (a b : Launch) : Prop where
  parts : ¬ SameParts a b
  mounts : ∀ m ∈ a.mounts c, ∀ m' ∈ b.mounts c, ∀ more,
    ¬ (Continues a b more ∧ m = more ++ "-" ++ m') ∧
    ¬ (Continues b a more ∧ m' = more ++ "-" ++ m)

variable {a b : Launch} {c : LetterCase} {m m' : String}

/-- A name with two readings: one of the IDs goes on where the other one ends. -/
theorem continues_of_snapshotName_eq (hids : a.id ≠ b.id)
    (h : a.id ++ "-" ++ m = b.id ++ "-" ++ m') :
    ∃ more, (Continues a b more ∧ m = more ++ "-" ++ m') ∨
      (Continues b a more ∧ m' = more ++ "-" ++ m) := by
  have htext : a.id.toList ++ '-' :: m.toList = b.id.toList ++ '-' :: m'.toList := by
    simpa using congrArg String.toList h
  rcases List.append_eq_append_iff.mp htext with ⟨r, hb, hm⟩ | ⟨r, ha, hm⟩
  · cases r with
    | nil => exact absurd (String.toList_inj.mp (by simpa using hb.symm)) hids
    | cons d r =>
      obtain ⟨rfl, hm⟩ := List.cons.inj hm
      refine ⟨String.ofList r, .inl ⟨?_, ?_⟩⟩
      · exact String.toList_inj.mp (by simpa using hb)
      · exact String.toList_inj.mp (by simpa using hm)
  · cases r with
    | nil => exact absurd (String.toList_inj.mp (by simpa using ha)) hids
    | cons d r =>
      obtain ⟨rfl, hm⟩ := List.cons.inj hm
      refine ⟨String.ofList r, .inr ⟨?_, ?_⟩⟩
      · exact String.toList_inj.mp (by simpa using ha)
      · exact String.toList_inj.mp (by simpa using hm)

theorem snapshotName_eq_of_continues {more : String} (h : Continues a b more)
    (hm : m = more ++ "-" ++ m') : a.id ++ "-" ++ m = b.id ++ "-" ++ m' := by
  rw [h, hm]
  simp [String.append_assoc]

theorem lastWithID_backupID {cat : Catalog} {ns backupID : String} {backup : Api.Backup}
    (h : lastWithID cat ns backupID = some backup) : backup.status.backupID = backupID := by
  have hmem := List.mem_of_getLast? h
  simpa using (List.mem_filter.mp hmem).2

/-- Two backups can be told apart if and only if their IDs have different parts. -/
theorem distinguishable_iff_apart (c : LetterCase) (a b : Launch) :
    Distinguishable c a b ↔ Apart c a b := by
  constructor
  · intro h
    constructor
    · rw [← id_eq_iff]
      exact h.ids
    · intro m hm m' hm' more
      constructor
      · rintro ⟨hc, heq⟩
        refine h.snapshots _ (List.mem_map_of_mem hm) ?_
        rw [snapshotName_eq_of_continues hc heq]
        exact List.mem_map_of_mem hm'
      · rintro ⟨hc, heq⟩
        refine h.snapshots _ (List.mem_map_of_mem hm) ?_
        rw [← snapshotName_eq_of_continues hc heq]
        exact List.mem_map_of_mem hm'
  · intro h
    have hids : a.id ≠ b.id := by
      rw [Ne, id_eq_iff]
      exact h.parts
    constructor
    · exact hids
    · intro cat ns backup hfound
      rw [lastWithID_backupID hfound]
      exact hids
    · intro name ha hb
      obtain ⟨m, hm, rfl⟩ := List.mem_map.mp ha
      obtain ⟨m', hm', heq⟩ := List.mem_map.mp hb
      obtain ⟨more, hmore | hmore⟩ := continues_of_snapshotName_eq hids heq.symm
      · exact (h.mounts m hm m' hm' more).1 hmore
      · exact (h.mounts m hm m' hm' more).2 hmore

/-- Mounts without a dash never make up for a difference. -/
theorem apart_iff_of_no_dash (h : ∀ m ∈ a.mounts c ++ b.mounts c, '-' ∉ m.toList) :
    Apart c a b ↔ ¬ SameParts a b := by
  have hdash : ∀ more m : String, '-' ∈ (more ++ "-" ++ m).toList := by simp
  constructor
  · exact Apart.parts
  · intro hparts
    refine ⟨hparts, fun m hm m' hm' more => ⟨?_, ?_⟩⟩
    · rintro ⟨-, rfl⟩
      exact h _ (List.mem_append_left _ hm) (hdash more m')
    · rintro ⟨-, rfl⟩
      exact h _ (List.mem_append_right _ hm') (hdash more m)

end Shared

section Controllers

/-- The ID that the controller of Backups generates. -/
theorem generateID_eq {env : Env} {backup : Backup} {l : Launch}
    (hkind : l.kind = if backup.spec.type = .snapshot then .snap else .phys)
    (hname : l.instName = backup.instName) (hdate : env.date = String.ofList l.dateText)
    (hns : env.nanosecond = l.nanosecond) : generateID env backup = l.id := by
  unfold generateID Launch.id
  rw [hkind, hname, hdate, hns]
  by_cases htype : backup.spec.type = .snapshot <;> simp [htype, Kind.text]

theorem patchingBackupID_eq {env : Instance.Reconciler.Env} {inst : Instance} {l : Launch}
    (hkind : l.kind = .patching) (hname : l.instName = inst.name)
    (hstamp : env.stamp = String.ofList l.dateText ++ toString l.nanosecond) :
    Instance.Reconciler.patchingBackupID env inst = l.id := by
  unfold Instance.Reconciler.patchingBackupID Launch.id
  rw [hkind, hname, hstamp]
  simp [String.append_assoc]

end Controllers

section Sample

/-- Two Backups of an instance on one day, an hour apart to the nanosecond. -/
def backupAtEight : Launch where
  kind := .snap
  instName := "mydb"
  disks := Instance.defaultDisks
  offset := 0
  now := date 2022 1 1 + 8 * hour + 6
  later := date 2022 1 1 + 8 * hour + 7
  named := ⟨"myd".toList, 'b', by decide, by decide⟩
  era := by decide +kernel

def backupAtNine : Launch where
  kind := .snap
  instName := "mydb"
  disks := Instance.defaultDisks
  offset := 0
  now := date 2022 1 1 + 9 * hour + 6
  later := date 2022 1 1 + 9 * hour + 7
  named := ⟨"myd".toList, 'b', by decide, by decide⟩
  era := by decide +kernel

/-- Two instances that are patched on one day, where the name of the one has the date in it. -/
def patchingOfDb : Launch where
  kind := .patching
  instName := "db"
  disks := Instance.defaultDisks
  offset := 0
  now := date 2022 1 1
  later := date 2022 1 1 + 202201015
  named := ⟨"d".toList, 'b', by decide, by decide⟩
  era := by decide +kernel

def patchingOfDated : Launch where
  kind := .patching
  instName := "db20220101"
  disks := Instance.defaultDisks
  offset := 0
  now := date 2022 1 1 + hour
  later := date 2022 1 1 + hour + 5
  named := ⟨"db2022010".toList, '1', by decide, by decide⟩
  era := by decide +kernel

theorem same_ids_at_different_times :
    (backupAtEight.now ≠ backupAtNine.now ∧
      ¬ Distinguishable .ascii backupAtEight backupAtNine) ∧
    patchingOfDb.now ≠ patchingOfDated.now ∧
      ¬ Distinguishable .ascii patchingOfDb patchingOfDated := by
  refine ⟨⟨by decide, fun h => h.ids ?_⟩, by decide, fun h => h.ids ?_⟩
  · decide +kernel
  · decide +kernel

end Sample

end ElCarro.Backups.ID
