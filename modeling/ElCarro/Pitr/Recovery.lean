import ElCarro.Pitr.Windows

/-! # Restores inside a recovery window

A window promises that every instant in it can be restored. The promise is made
from the replicated logs alone, while staging wants every catalogued log that
touches the interval between the chosen Backup and the instant.
-/

namespace ElCarro.Pitr

open GoTime K8s Api
open Instance (Catalog findRestorePITR findPITRBackupForRestore findPITRBackup pitrBackups
  targetIncarnation readyTime LatestReady findPITRBackupBasedonTimestamp)

/-- A window that the controller reports for a PITR object and its instance. -/
def Reported (cat : Catalog) (p : PITR) (inst : Instance) (metadata : LogMetadata)
    (w : TimeWindow) : Prop :=
  ∃ keys now conditions status, SortedKeys metadata keys ∧
    updateStatus cat p inst (.ok (recoveryWindows metadata keys)) now conditions = .ok status ∧
    w ∈ status.availableRecoveryWindowTime

/-- A request to restore to an instant, resolved to a PITR object without an API error. -/
structure TimeRequest (cat : Catalog) (inst : Instance) (pitrRestore : PITRRestoreSpec)
    (p : PITR) (t : Time) : Prop where
  timestamp : pitrRestore.timestamp = some t
  scn : pitrRestore.scn = ""
  pitr : findRestorePITR cat inst pitrRestore = .ok p
  listed : cat.listBackupsErr = none

/-- The interval that `restorePhysical` asks for. -/
def restoreInput (cat : Catalog) (pitrRestore : PITRRestoreSpec) (b : Backup) :
    Option PitrRestoreInput := do
  let (startScn, endScn) ←
    if pitrRestore.scn ≠ "" then do
      let startScn ← cat.parseInt (valueAt b.annotations scnAnnotation)
      let endScn ← cat.parseInt pitrRestore.scn
      some (startScn, endScn)
    else some (0, 0)
  match pitrRestore.timestamp with
  | none => some ⟨none, none, startScn, endScn⟩
  | some t =>
    let startTime ← cat.parseTime (valueAt b.annotations timestampAnnotation)
    some ⟨some startTime, some t, startScn, endScn⟩

/--
The restore to `t` works as the window promises: its Backup lies in the window at or before `t`,
and every log that is wanted from there to `t` has a replica, so staging finds them all.
-/
def Recoverable (cat : Catalog) (inst : Instance) (pitrRestore : PITRRestoreSpec)
    (metadata : LogMetadata) (w : TimeWindow) (t : Time) : Prop :=
  ∃ b taken input, findPITRBackupForRestore cat inst pitrRestore = .ok b ∧
    cat.parseTime (valueAt b.annotations timestampAnnotation) = some taken ∧
    w.beginTime ≤ taken ∧ taken ≤ t ∧ restoreInput cat pitrRestore b = some input ∧
    (∃ want, included cat.parseInt input = .ok want ∧
      ∀ key entry, metadata.lookup key = some entry → want entry → entry.replicaPath ≠ "") ∧
    ∀ keys, stageAndCatalog cat.parseInt (some metadata) input ≠ .error (.notReplicated keys)

/--
The latest time at or before `t` of a Ready Backup of the target incarnation; of the parent
incarnation when the target incarnation has none.
-/
def LatestBackupTime (cat : Catalog) (inst : Instance) (pitrRestore : PITRRestoreSpec) (p : PITR)
    (t taken : Time) : Prop :=
  let own := pitrBackups cat p (targetIncarnation inst pitrRestore p)
  LatestReady cat own t taken ∨
    ∃ first ∈ own.head?, (∀ u, ¬ LatestReady cat own t u) ∧
      LatestReady cat (pitrBackups cat p (valueAt first.labels parentIncarnationLabel)) t taken

/-- Every log without a replica ends before the interval or starts after it. -/
def UnreplicatedOutside (metadata : LogMetadata) (taken t : Time) : Prop :=
  ∀ key entry, metadata.lookup key = some entry → entry.replicaPath = "" →
    entry.nextTime < taken ∨ t < entry.firstTime

section

variable {cat : Catalog} {inst : Instance} {pitrRestore : PITRRestoreSpec} {p : PITR}
  {metadata : LogMetadata} {t taken : Time} {b : Backup}

theorem readyTime_eq_some (h : readyTime cat b = some taken) :
    cat.parseTime (valueAt b.annotations timestampAnnotation) = some taken := by
  unfold readyTime at h
  split at h
  · split at h
    · cases h
    · exact h
  · cases h

theorem findPITRBackup_eq_timestamp (cat : Catalog) {backups : List Backup}
    (ht : pitrRestore.timestamp = some t) (hne : backups ≠ []) :
    findPITRBackup cat backups pitrRestore = findPITRBackupBasedonTimestamp cat backups t := by
  simp [findPITRBackup, hne, ht]

theorem not_latestReady_nil : ¬ LatestReady cat [] t taken := by
  rintro ⟨⟨b, hb, -⟩, -⟩
  cases hb

section Lists

variable {first : Backup} {rest : List Backup}

/-- A Backup of the target incarnation before the target is taken. -/
theorem findPITRBackupForRestore_own (hreq : TimeRequest cat inst pitrRestore p t)
    (hown : pitrBackups cat p (targetIncarnation inst pitrRestore p) = first :: rest)
    (hok : findPITRBackupBasedonTimestamp cat (first :: rest) t = .ok b) :
    findPITRBackupForRestore cat inst pitrRestore = .ok b := by
  have hfind := findPITRBackup_eq_timestamp cat hreq.timestamp (List.cons_ne_nil first rest)
  unfold findPITRBackupForRestore
  simp [hreq.scn, hreq.timestamp, hreq.pitr, hreq.listed, hown, hfind, hok]

/-- Without one the search goes on in the parent incarnation. -/
theorem findPITRBackupForRestore_parent (hreq : TimeRequest cat inst pitrRestore p t)
    (hown : pitrBackups cat p (targetIncarnation inst pitrRestore p) = first :: rest)
    {err : String} (herr : findPITRBackupBasedonTimestamp cat (first :: rest) t = .error err) :
    findPITRBackupForRestore cat inst pitrRestore =
      findPITRBackup cat (pitrBackups cat p (valueAt first.labels parentIncarnationLabel))
        pitrRestore := by
  have hfind := findPITRBackup_eq_timestamp cat hreq.timestamp (List.cons_ne_nil first rest)
  unfold findPITRBackupForRestore
  simp [hreq.scn, hreq.timestamp, hreq.pitr, hreq.listed, hown, hfind, herr]

theorem findPITRBackupForRestore_nil (hreq : TimeRequest cat inst pitrRestore p t)
    (hown : pitrBackups cat p (targetIncarnation inst pitrRestore p) = []) :
    findPITRBackupForRestore cat inst pitrRestore =
      .error "failed to find any backup for a PITR restore" := by
  unfold findPITRBackupForRestore
  simp [hreq.scn, hreq.timestamp, hreq.pitr, hreq.listed, hown]

end Lists

/-- The Backup that is found carries the latest time, and it is found when there is one. -/
theorem found_iff_latestBackupTime (hreq : TimeRequest cat inst pitrRestore p t) :
    (∃ b, findPITRBackupForRestore cat inst pitrRestore = .ok b ∧
        readyTime cat b = some taken) ↔
      LatestBackupTime cat inst pitrRestore p t taken := by
  unfold LatestBackupTime
  dsimp only
  cases hown : pitrBackups cat p (targetIncarnation inst pitrRestore p) with
  | nil =>
    rw [findPITRBackupForRestore_nil hreq hown]
    constructor
    · rintro ⟨b, hb, -⟩
      cases hb
    · rintro (h | ⟨first, hfirst, -⟩)
      · exact absurd h not_latestReady_nil
      · cases hfirst
  | cons first rest =>
    rcases Instance.findPITRBackupBasedonTimestamp_spec cat (first :: rest) t with
      ⟨b, u, hok, hbu, hlatest⟩ | ⟨⟨err, herr⟩, hnone⟩
    · -- the target incarnation has a Backup before the target
      rw [findPITRBackupForRestore_own hreq hown hok]
      constructor
      · rintro ⟨b', hb', hb't⟩
        obtain rfl : b = b' := Except.ok.inj hb'
        obtain rfl : u = taken := Option.some.inj (hbu.symm.trans hb't)
        exact .inl hlatest
      · rintro (h | ⟨_, _, hn, -⟩)
        · exact ⟨b, rfl, by rw [hbu, hlatest.unique h]⟩
        · exact absurd hlatest (hn u)
    · rw [findPITRBackupForRestore_parent hreq hown herr]
      simp only [List.head?_cons, Option.mem_def, Option.some.injEq, exists_eq_left', hnone,
        not_false_eq_true, implies_true, true_and, false_or]
      generalize pitrBackups cat p (valueAt first.labels parentIncarnationLabel) = parents
      rcases eq_or_ne parents [] with rfl | hne
      · constructor
        · rintro ⟨b, hb, -⟩
          cases hb
        · exact fun h => absurd h not_latestReady_nil
      · rw [findPITRBackup_eq_timestamp cat hreq.timestamp hne]
        constructor
        · rintro ⟨b, hb, hbt⟩
          obtain ⟨u, hbu, hlatest⟩ := Instance.latestReady_of_ok hb
          obtain rfl : u = taken := Option.some.inj (hbu.symm.trans hbt)
          exact hlatest
        · intro h
          rcases Instance.findPITRBackupBasedonTimestamp_spec cat parents t with
            ⟨b, u, hok, hbu, hlatest⟩ | ⟨-, hnone'⟩
          · exact ⟨b, hok, by rw [hbu, hlatest.unique h]⟩
          · exact absurd h (hnone' taken)

theorem ready_of_found (hreq : TimeRequest cat inst pitrRestore p t)
    (h : findPITRBackupForRestore cat inst pitrRestore = .ok b) :
    ∃ u, readyTime cat b = some u := by
  cases hown : pitrBackups cat p (targetIncarnation inst pitrRestore p) with
  | nil =>
    rw [findPITRBackupForRestore_nil hreq hown] at h
    cases h
  | cons first rest =>
    rcases Instance.findPITRBackupBasedonTimestamp_spec cat (first :: rest) t with
      ⟨b', u, hok, hbu, -⟩ | ⟨⟨err, herr⟩, -⟩
    · rw [findPITRBackupForRestore_own hreq hown hok] at h
      obtain rfl : b' = b := Except.ok.inj h
      exact ⟨u, hbu⟩
    · rw [findPITRBackupForRestore_parent hreq hown herr] at h
      generalize pitrBackups cat p (valueAt first.labels parentIncarnationLabel) = parents at h
      rcases eq_or_ne parents [] with rfl | hne
      · cases h
      · rw [findPITRBackup_eq_timestamp cat hreq.timestamp hne] at h
        obtain ⟨u, hu, -⟩ := Instance.latestReady_of_ok h
        exact ⟨u, hu⟩

theorem restoreInput_eq (hreq : TimeRequest cat inst pitrRestore p t)
    (hb : cat.parseTime (valueAt b.annotations timestampAnnotation) = some taken) :
    restoreInput cat pitrRestore b = some ⟨some taken, some t, 0, 0⟩ := by
  simp [restoreInput, hreq.scn, hreq.timestamp, hb]

theorem entryAt_of_lookup {key : String} {entry : LogMetadataEntry}
    (h : metadata.lookup key = some entry) : entryAt metadata key = entry := by
  simp [entryAt, h]

/-- Staging misses a replica exactly when a wanted log has none. -/
theorem stageLogs_ne_notReplicated_iff {want : LogMetadataEntry → Bool} :
    (∀ keys, stageLogs (some metadata) want ≠ .error (.notReplicated keys)) ↔
      ∀ key entry, metadata.lookup key = some entry → want entry → entry.replicaPath ≠ "" := by
  have hmem : ∀ key entry, metadata.lookup key = some entry → key ∈ metadata.keys := by
    intro key entry hl
    rw [Finmap.mem_keys, ← Finmap.lookup_isSome, hl]
    rfl
  unfold stageLogs
  dsimp only
  constructor
  · intro h key entry hl hwant hpath
    have hne : metadata ≠ ∅ := by
      rintro rfl
      cases hl
    rw [if_neg hne] at h
    have hkey : key ∈ (metadata.keys.filter fun k => want (entryAt metadata k)).filter
        fun k => (entryAt metadata k).replicaPath = "" := by
      simp only [Finset.mem_filter, entryAt_of_lookup hl]
      exact ⟨⟨hmem key entry hl, hwant⟩, hpath⟩
    rw [if_neg (Finset.ne_empty_of_mem hkey)] at h
    exact h _ rfl
  · intro h keys
    split
    · simp
    · split
      · simp
      · next hnone =>
        obtain ⟨key, hkey⟩ := Finset.nonempty_iff_ne_empty.mpr hnone
        simp only [Finset.mem_filter] at hkey
        obtain ⟨⟨hk, hwant⟩, hpath⟩ := hkey
        rw [Finmap.mem_keys, ← Finmap.lookup_isSome] at hk
        obtain ⟨entry, hl⟩ := Option.isSome_iff_exists.mp hk
        rw [entryAt_of_lookup hl] at hwant hpath
        exact absurd hpath (h key entry hl hwant)

theorem wanted_replicated_iff :
    (∀ key entry, metadata.lookup key = some entry →
        ¬ (entry.nextTime < taken ∨ t < entry.firstTime) → entry.replicaPath ≠ "") ↔
      UnreplicatedOutside metadata taken t := by
  unfold UnreplicatedOutside
  constructor
  · intro h key entry hl hpath
    by_contra hn
    exact h key entry hl hn hpath
  · intro h key entry hl hn hpath
    exact hn (h key entry hl hpath)

end

section Example

def tenOClock : Time := date 2021 9 13 + 10 * hour

def source : Instance := .blank "db" "mydb"

def sourcePITR : PITR := ⟨"db", "mydb-pitr", ⟨"mydb"⟩, "gs://bk/mydb", "1"⟩

def readyBackup : Backup :=
  ⟨"db", "b1",
    ((∅ : StrMap).insert pitrLabel "mydb-pitr").insert incarnationLabel "1",
    (∅ : StrMap).insert timestampAnnotation "2021-09-13T10:05:00Z", 0, none, .physical,
    ⟨.succeeded, [⟨.ready, .true, .backupReady, "", 0⟩], "b1"⟩, none⟩

def oneBackup : Catalog where
  backups := [readyBackup]
  pitrs := [sourcePITR]
  parseTime
    | "2021-09-13T10:05:00Z" => some (tenOClock + 5 * minute)
    | _ => none
  parseInt := fun _ => none
  getBackupErr := none
  listBackupsErr := none
  getPITRErr := none
  listPITRsErr := none

def logEntry (replicaPath : String) (firstTime nextTime : Time) : LogMetadataEntry :=
  ⟨⟨"", replicaPath, 0⟩, "", "", "", firstTime, nextTime, "", "", "1", "1"⟩

/-- The log from 10:00 to 10:10 is replicated, the one that follows it is not yet. -/
def twoLogs : LogMetadata :=
  ((∅ : LogMetadata).insert "1-1-1"
    (logEntry "gs://bk/mydb/1.arc" tenOClock (tenOClock + 10 * minute))).insert "1-1-2"
      (logEntry "" (tenOClock + 10 * minute) (tenOClock + 20 * minute))

def window : TimeWindow := ⟨tenOClock + 5 * minute, tenOClock + 10 * minute⟩

def restoreTo (t : Time) : PITRRestoreSpec := ⟨"1", some t, "", some ⟨"db", "mydb-pitr"⟩⟩

theorem sortedKeys_twoLogs : SortedKeys twoLogs ["1-1-1", "1-1-2"] := by
  refine ⟨by decide, fun k => ?_, by decide⟩
  simp only [twoLogs, Finmap.mem_insert, Finmap.notMem_empty, List.mem_cons, List.not_mem_nil,
    or_false]
  exact or_comm

theorem reported_window : Reported oneBackup sourcePITR source twoLogs window :=
  ⟨["1-1-1", "1-1-2"], 0, [], _, sortedKeys_twoLogs, rfl, by decide⟩

theorem latestBackupTime_inside :
    LatestBackupTime oneBackup source (restoreTo (tenOClock + 8 * minute)) sourcePITR
      (tenOClock + 8 * minute) (tenOClock + 5 * minute) := by
  have hown : pitrBackups oneBackup sourcePITR
      (targetIncarnation source (restoreTo (tenOClock + 8 * minute)) sourcePITR) =
      [readyBackup] := rfl
  unfold LatestBackupTime
  dsimp only
  rw [hown]
  refine .inl ⟨⟨readyBackup, List.mem_singleton_self _, rfl⟩, by decide, by decide, ?_⟩
  intro b hb u hu _
  obtain rfl := List.mem_singleton.mp hb
  exact (Option.some.inj hu).ge

theorem unreplicatedOutside_inside :
    UnreplicatedOutside twoLogs (tenOClock + 5 * minute) (tenOClock + 8 * minute) := by
  intro key entry hl hpath
  by_cases h₂ : key = "1-1-2"
  · subst h₂
    obtain rfl := Option.some.inj hl
    exact .inr (by decide)
  · by_cases h₁ : key = "1-1-1"
    · subst h₁
      obtain rfl := Option.some.inj hl
      exact absurd hpath (by decide)
    · rw [twoLogs, Finmap.lookup_insert_of_ne _ h₂, Finmap.lookup_insert_of_ne _ h₁] at hl
      cases hl

end Example

end ElCarro.Pitr
