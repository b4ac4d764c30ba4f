import ElCarro.Instance.Disks

/-! # Claims and mounts of the disks

A reserved disk is recognised in any letter case, but its mount is looked up by the exact
spelling. A custom disk is named and mounted after its own name in lower case, whether
or not that is the mount of a reserved disk.
-/

namespace ElCarro.Instance

open Api

/-- `strings.ToLower`, which also knows the letters beyond ASCII. -/
structure LetterCase where
  toLower : String → String
  dataDisk : toLower "DataDisk" = "datadisk"
  logDisk : toLower "LogDisk" = "logdisk"
  backupDisk : toLower "BackupDisk" = "backupdisk"

/-- The letters of ASCII. -/
def LetterCase.ascii : LetterCase := ⟨Instance.toLower, by decide, by decide, by decide⟩

structure VolumeMount where
  name : String
  mountPath : String
  deriving DecidableEq, Repr

/-- The spellings under which the mounts of the reserved disks are looked up. -/
def reservedSpellings : List String := ["DataDisk", "LogDisk", "BackupDisk"]

def getPVCNameAndMount (instName diskName : String) : String × String :=
  let mountLocation := defaultDiskMountLocation diskName
  (instName ++ "-pvc-" ++ mountLocation, mountLocation)

namespace LetterCase

variable (c : LetterCase)

def isReservedDiskName (diskName : String) : Bool :=
  ["datadisk", "backupdisk", "logdisk"].contains (c.toLower diskName)

def getCustomPVCNameAndMount (instName diskName : String) : String × String :=
  (instName ++ "-pvc-" ++ c.toLower diskName, c.toLower diskName)

/-- How `NewPVCs`, `buildPVCMounts` and the backups choose between the two. -/
def pvcNameAndMount (instName diskName : String) : String × String :=
  if c.isReservedDiskName diskName then getPVCNameAndMount instName diskName
  else c.getCustomPVCNameAndMount instName diskName

def buildPVCMounts (instName : String) (disks : List DiskSpec) : List VolumeMount :=
  disks.map fun disk =>
    let (pvcName, mount) := c.pvcNameAndMount instName disk.name
    ⟨pvcName, "/" ++ mount⟩

/-- The claims and mounts of the disks are what the layout of the database relies on. -/
structure WellMounted (instName : String) (disks : List DiskSpec) : Prop where
  names : ((c.buildPVCMounts instName disks).map VolumeMount.name).Nodup
  mounts : ((c.buildPVCMounts instName disks).map VolumeMount.mountPath).Nodup
  nonempty : ∀ disk ∈ disks, (c.pvcNameAndMount instName disk.name).1 ≠ "" ∧
    (c.pvcNameAndMount instName disk.name).2 ≠ ""
  reserved : ∀ disk ∈ disks, ∀ spelling ∈ reservedSpellings,
    c.toLower disk.name = c.toLower spelling →
      c.pvcNameAndMount instName disk.name = getPVCNameAndMount instName spelling
  custom : ∀ disk ∈ disks, c.isReservedDiskName disk.name = false →
    ∀ spelling ∈ reservedSpellings,
      (c.pvcNameAndMount instName disk.name).1 ≠ (getPVCNameAndMount instName spelling).1 ∧
      (c.pvcNameAndMount instName disk.name).2 ≠ (getPVCNameAndMount instName spelling).2

/--
The names for which this is so: a reserved one in the usual spelling, or one that is
neither empty nor the mount of a reserved disk.
-/
structure Proper (diskName : String) : Prop where
  spelled : c.isReservedDiskName diskName = true → diskName ∈ reservedSpellings
  apart : c.isReservedDiskName diskName = false →
    c.toLower diskName ∉ ["", "u02", "u03", "u04"]

instance (diskName : String) : Decidable (c.Proper diskName) :=
  decidable_of_iff ((c.isReservedDiskName diskName = true → diskName ∈ reservedSpellings) ∧
    (c.isReservedDiskName diskName = false → c.toLower diskName ∉ ["", "u02", "u03", "u04"]))
    ⟨fun h => ⟨h.1, h.2⟩, fun h => ⟨h.spelled, h.apart⟩⟩

variable {c} {instName diskName : String}

theorem pvcNameAndMount_fst (instName diskName : String) :
    (c.pvcNameAndMount instName diskName).1 =
      instName ++ "-pvc-" ++ (c.pvcNameAndMount instName diskName).2 := by
  unfold pvcNameAndMount
  split <;> rfl

/-- With the letters of ASCII these are the claims and mounts of the StatefulSet. -/
theorem pvcNameAndMount_ascii (instName diskName : String) :
    ascii.pvcNameAndMount instName diskName = (pvcName instName diskName, mountOf diskName) := by
  unfold pvcName mountOf pvcNameAndMount
  change (if Instance.isReservedDiskName diskName then _ else _) = _
  split <;> rfl

theorem newPVCs_names {sp : StsParams} {pvcs : List PVC} (h : newPVCs sp = .ok pvcs) :
    pvcs.map PVC.name =
      (ascii.buildPVCMounts sp.inst.name sp.disks).map VolumeMount.name := by
  have hpvcs := forall₂_of_mapM_ok h
  rw [buildPVCMounts, List.map_map]
  clear h
  generalize sp.disks = disks at hpvcs ⊢
  induction hpvcs with
  | nil => rfl
  | cons hpvc _ ih =>
    simp only [List.map_cons, Function.comp, pvcNameAndMount_ascii, (newPVC_ok hpvc).2.1] at ih ⊢
    rw [ih]

theorem isReservedDiskName_iff : c.isReservedDiskName diskName = true ↔
    ∃ spelling ∈ reservedSpellings, c.toLower diskName = c.toLower spelling := by
  simp only [isReservedDiskName, reservedSpellings, List.contains_eq_mem, List.mem_cons,
    List.not_mem_nil, or_false, decide_eq_true_eq, exists_eq_or_imp, exists_eq_left,
    c.dataDisk, c.logDisk, c.backupDisk]
  tauto

theorem toLower_inj {a b : String} (ha : a ∈ reservedSpellings) (hb : b ∈ reservedSpellings)
    (h : c.toLower a = c.toLower b) : a = b := by
  simp only [reservedSpellings, List.mem_cons, List.not_mem_nil, or_false] at ha hb
  rcases ha with rfl | rfl | rfl <;> rcases hb with rfl | rfl | rfl <;>
    simp [c.dataDisk, c.logDisk, c.backupDisk] at h ⊢

theorem isReservedDiskName_of_mem (h : diskName ∈ reservedSpellings) :
    c.isReservedDiskName diskName = true :=
  isReservedDiskName_iff.mpr ⟨diskName, h, rfl⟩

theorem mount_of_spelling (h : diskName ∈ reservedSpellings) :
    c.pvcNameAndMount instName diskName = getPVCNameAndMount instName diskName :=
  if_pos (isReservedDiskName_of_mem h)

theorem mount_of_custom (h : c.isReservedDiskName diskName = false) :
    (c.pvcNameAndMount instName diskName).2 = c.toLower diskName := by
  simp [pvcNameAndMount, h, getCustomPVCNameAndMount]

theorem mem_reservedSpellings_iff :
    diskName ∈ reservedSpellings ↔ defaultDiskMountLocation diskName ≠ "" := by
  simp only [reservedSpellings, defaultDiskMountLocation, List.mem_cons, List.not_mem_nil, or_false]
  constructor
  · rintro (rfl | rfl | rfl) <;> decide
  · intro h
    split at h
    · next hd => exact .inl hd
    · split at h
      · next hl => exact .inr (.inl hl)
      · split at h
        · next hb => exact .inr (.inr hb)
        · exact absurd rfl h

/-- The three reserved disks have three mounts. -/
theorem defaultDiskMountLocation_inj : ∀ a ∈ reservedSpellings, ∀ b ∈ reservedSpellings,
    defaultDiskMountLocation a = defaultDiskMountLocation b → a = b := by
  decide

theorem defaultDiskMountLocation_mem : ∀ a ∈ reservedSpellings,
    defaultDiskMountLocation a ∈ ["", "u02", "u03", "u04"] := by
  decide

/-- Proper names with the same mount are the same up to letter case. -/
theorem Proper.toLower_eq {a b : String} (ha : c.Proper a) (hb : c.Proper b)
    (h : (c.pvcNameAndMount instName a).2 = (c.pvcNameAndMount instName b).2) :
    c.toLower a = c.toLower b := by
  cases hra : c.isReservedDiskName a with
  | true =>
    have hsa := ha.spelled hra
    rw [mount_of_spelling hsa] at h
    cases hrb : c.isReservedDiskName b with
    | true =>
      have hsb := hb.spelled hrb
      rw [mount_of_spelling hsb] at h
      rw [defaultDiskMountLocation_inj a hsa b hsb h]
    | false =>
      rw [mount_of_custom hrb] at h
      have hmem := defaultDiskMountLocation_mem a hsa
      exact absurd (h ▸ hmem) (hb.apart hrb)
  | false =>
    rw [mount_of_custom hra] at h
    cases hrb : c.isReservedDiskName b with
    | true =>
      have hsb := hb.spelled hrb
      rw [mount_of_spelling hsb] at h
      have hmem := defaultDiskMountLocation_mem b hsb
      exact absurd (h ▸ hmem) (ha.apart hra)
    | false => rwa [mount_of_custom hrb] at h

theorem Proper.mount_ne_empty (h : c.Proper diskName) :
    (c.pvcNameAndMount instName diskName).2 ≠ "" := by
  cases hr : c.isReservedDiskName diskName with
  | true =>
    have hs := h.spelled hr
    rw [mount_of_spelling hs]
    exact mem_reservedSpellings_iff.mp hs
  | false =>
    rw [mount_of_custom hr]
    have hn := h.apart hr
    simp only [List.mem_cons, not_or] at hn
    exact hn.1

theorem proper_of_wellMounted {disks : List DiskSpec} {disk : DiskSpec}
    (h : c.WellMounted instName disks) (hd : disk ∈ disks) : c.Proper disk.name := by
  have hne := (h.nonempty disk hd).2
  cases hr : c.isReservedDiskName disk.name with
  | true =>
    refine ⟨fun _ => mem_reservedSpellings_iff.mpr ?_, by simp [hr]⟩
    simpa only [pvcNameAndMount, if_pos hr, getPVCNameAndMount] using hne
  | false =>
    have hmount : (c.pvcNameAndMount instName disk.name).2 = c.toLower disk.name :=
      mount_of_custom hr
    have hcustom := h.custom disk hd hr
    rw [hmount] at hne hcustom
    refine ⟨by simp [hr], fun _ => ?_⟩
    simp only [List.mem_cons, List.not_mem_nil, or_false, not_or]
    exact ⟨hne, (hcustom "DataDisk" (by decide)).2, (hcustom "LogDisk" (by decide)).2,
      (hcustom "BackupDisk" (by decide)).2⟩

theorem pairwise_mount_ne (instName : String) {disks : List DiskSpec}
    (hnames : (disks.map fun disk => c.toLower disk.name).Nodup)
    (hp : ∀ disk ∈ disks, c.Proper disk.name) :
    disks.Pairwise fun a b =>
      (c.pvcNameAndMount instName a.name).2 ≠ (c.pvcNameAndMount instName b.name).2 := by
  have hne := List.pairwise_map.mp hnames
  refine hne.imp_of_mem fun ha hb hlower hmount => ?_
  exact hlower ((hp _ ha).toLower_eq (hp _ hb) hmount)

/--
The disks of an instance whose names differ also in lower case are well mounted if and
only if all of the names are proper.
-/
theorem wellMounted_iff_proper (c : LetterCase) (inst : Instance) (config : Option Config)
    (hnames : ((diskSpecs inst config).map fun disk => c.toLower disk.name).Nodup) :
    c.WellMounted inst.name (diskSpecs inst config) ↔
      ∀ disk ∈ diskSpecs inst config, c.Proper disk.name := by
  constructor
  · intro h disk hd
    exact proper_of_wellMounted h hd
  · intro hp
    have hmounts := pairwise_mount_ne inst.name hnames hp
    constructor
    · rw [List.Nodup, buildPVCMounts, List.map_map, List.pairwise_map]
      refine hmounts.imp fun hne heq => hne ?_
      simpa only [Function.comp, pvcNameAndMount_fst, String.append_right_inj] using heq
    · rw [List.Nodup, buildPVCMounts, List.map_map, List.pairwise_map]
      refine hmounts.imp fun hne heq => hne ?_
      simpa only [Function.comp, String.append_right_inj] using heq
    · intro disk hd
      refine ⟨fun h => ?_, (hp disk hd).mount_ne_empty⟩
      rw [pvcNameAndMount_fst] at h
      simp [String.append_eq_empty_iff] at h
    · intro disk hd spelling hs hlower
      have hr := isReservedDiskName_iff.mpr ⟨spelling, hs, hlower⟩
      have hspelled := (hp disk hd).spelled hr
      rw [mount_of_spelling hspelled, toLower_inj hspelled hs hlower]
    · intro disk hd hr spelling hs
      have hne : (c.pvcNameAndMount inst.name disk.name).2 ≠
          (getPVCNameAndMount inst.name spelling).2 := by
        intro heq
        rw [mount_of_custom hr] at heq
        exact (hp disk hd).apart hr (heq ▸ defaultDiskMountLocation_mem spelling hs)
      refine ⟨fun heq => hne ?_, hne⟩
      rw [pvcNameAndMount_fst] at heq
      exact (String.append_right_inj _).mp heq

/-- An instance with disks of these names. -/
def withDisks (diskNames : List String) : Instance :=
  let blank := Instance.blank "db" "mydb"
  { blank with spec := { blank.spec with disks := some (diskNames.map fun name => ⟨name, 0, ""⟩) } }

/-- A reserved disk in lower case has no mount, a custom disk can take that of a reserved one. -/
theorem not_wellMounted_datadisk_u02 :
    (((diskSpecs (withDisks ["datadisk", "LogDisk"]) none).map
        fun disk => ascii.toLower disk.name).Nodup ∧
      ¬ ascii.WellMounted "mydb" (diskSpecs (withDisks ["datadisk", "LogDisk"]) none)) ∧
    ((diskSpecs (withDisks ["DataDisk", "u02"]) none).map
        fun disk => ascii.toLower disk.name).Nodup ∧
      ¬ ascii.WellMounted "mydb" (diskSpecs (withDisks ["DataDisk", "u02"]) none) := by
  refine ⟨⟨by decide, fun h => ?_⟩, by decide, fun h => ?_⟩
  · exact (h.nonempty ⟨"datadisk", 0, ""⟩ (by decide)).2 (by decide)
  · exact (h.custom ⟨"u02", 0, ""⟩ (by decide) (by decide) "DataDisk" (by decide)).2 (by decide)

theorem wellMounted_three_disks :
    ascii.WellMounted "mydb" (diskSpecs (withDisks ["DataDisk", "LogDisk", "Scratch"]) none) :=
  (wellMounted_iff_proper ascii (withDisks ["DataDisk", "LogDisk", "Scratch"]) none
    (by decide)).mpr (by decide)

end LetterCase

end ElCarro.Instance
