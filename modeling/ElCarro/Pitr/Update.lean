import ElCarro.Lib.Runs
import ElCarro.Pitr.Agent

/-! # One update of the catalog

`metadataUpdate` reads the catalog, merges the rows of the view of archived logs
into it and writes it back. The merge never touches an entry that has a replica,
so such an entry can be lost only with the whole catalog: when no read of it
succeeds, the update starts from an empty one and overwrites it.
-/

namespace ElCarro.Pitr

open GoTime Api

/-- One line of the answer of the database, and what the hash store says about its log. -/
structure ReportedLog where
  /-- Missing when the line is no valid JSON. -/
  row : Option Row
  hash : Option LogHashEntry

/-- Everything that one update learns from the database and from the storage. -/
structure UpdateAnswers where
  archiveDir : Option String
  query : String → Option (List ReportedLog)
  /-- Which reads of the catalog deliver it. -/
  reads : List Bool
  write : CallResult

section Update

variable (c : Config)

/-- The entry of a row, under its key and with its hash record. -/
def ReportedLog.entry (log : ReportedLog) : Option (String × LogMetadataEntry) := do
  let row ← log.row
  let entry ← rowEntry c.parseTime row
  some (rowKey row, { entry with toLogHashEntry := log.hash.getD entry.toLogHashEntry })

def mergeLog (metadata : LogMetadata) (log : ReportedLog) : LogMetadata :=
  match log.entry c with
  | none => metadata
  | some (key, entry) =>
    if ∃ existing ∈ metadata.lookup key, existing.replicaPath ≠ "" then metadata
    else metadata.insert key entry

/-- The stored catalog, empty when there is none that can be decoded. -/
def storedCatalog (objects : Objects) : LogMetadata :=
  (c.metadataStore.readCatalog objects metadataStorePath).getD ∅

/-- The flag tells whether the update returns without an error. -/
def metadataUpdate (objects : Objects) (a : UpdateAnswers) : Objects × Bool :=
  match a.archiveDir.bind a.query with
  | none => (objects, false)
  | some logs =>
    let metadata := if true ∈ a.reads.take 6 then storedCatalog c objects else ∅
    c.metadataStore.write objects metadataStorePath (.catalog (logs.foldl (mergeLog c) metadata))
      a.write

/-- No entry with a replica is removed or changed. -/
def KeepsReplicas (before after : Objects) : Prop :=
  ∀ key entry, (storedCatalog c before).lookup key = some entry → entry.replicaPath ≠ "" →
    (storedCatalog c after).lookup key = some entry

end Update

section Merge

variable {c : Config}

/-- The entry under a key, if it has a replica. -/
def replicaAt (metadata : LogMetadata) (key : String) : Option LogMetadataEntry :=
  (metadata.lookup key).filter (·.replicaPath ≠ "")

theorem replicaAt_eq_some {metadata : LogMetadata} {key : String} {entry : LogMetadataEntry} :
    replicaAt metadata key = some entry ↔
      metadata.lookup key = some entry ∧ entry.replicaPath ≠ "" := by
  simp [replicaAt, Option.filter_eq_some_iff]

theorem keepsReplicas_iff {before after : Objects} :
    KeepsReplicas c before after ↔ ∀ key entry,
      replicaAt (storedCatalog c before) key = some entry →
        replicaAt (storedCatalog c after) key = some entry := by
  constructor
  · intro h key entry he
    obtain ⟨hl, hne⟩ := replicaAt_eq_some.mp he
    exact replicaAt_eq_some.mpr ⟨h key entry hl hne, hne⟩
  · intro h key entry hl hne
    exact (replicaAt_eq_some.mp (h key entry (replicaAt_eq_some.mpr ⟨hl, hne⟩))).1

/-- The entry that a row gives under a key, if it has a replica. -/
def ReportedLog.replica (c : Config) (key : String) (log : ReportedLog) :
    Option LogMetadataEntry :=
  (log.entry c).bind fun e => if e.1 = key ∧ e.2.replicaPath ≠ "" then some e.2 else none

/-- A row adds a replica only under a key that had none. -/
theorem replicaAt_mergeLog (metadata : LogMetadata) (log : ReportedLog) (key : String) :
    replicaAt (mergeLog c metadata log) key =
      (replicaAt metadata key).or (log.replica c key) := by
  unfold mergeLog ReportedLog.replica
  cases log.entry c with
  | none => simp
  | some e =>
    obtain ⟨key', entry⟩ := e
    dsimp only [Option.bind_some]
    by_cases hk : key' = key
    · subst hk
      split
      · next hex =>
        obtain ⟨existing, hl, hne⟩ := hex
        have hat : replicaAt metadata key' = some existing := replicaAt_eq_some.mpr ⟨hl, hne⟩
        rw [hat, Option.some_or]
      · next hno =>
        have hat : replicaAt metadata key' = none := by
          apply Option.eq_none_iff_forall_ne_some.mpr
          intro existing he
          obtain ⟨hl, hne⟩ := replicaAt_eq_some.mp he
          exact hno ⟨existing, hl, hne⟩
        rw [hat, Option.none_or]
        simp [replicaAt, Finmap.lookup_insert, Option.filter]
    · have hrow : (if key' = key ∧ entry.replicaPath ≠ "" then some entry else none) = none :=
        if_neg fun h => hk h.1
      rw [hrow, Option.or_none]
      split
      · rfl
      · rw [replicaAt, Finmap.lookup_insert_of_ne _ (Ne.symm hk)]
        rfl

/-- After all rows, a key has the replica it had before or else the first one reported for it. -/
theorem replicaAt_mergeLogs (logs : List ReportedLog) (metadata : LogMetadata) (key : String) :
    replicaAt (logs.foldl (mergeLog c) metadata) key =
      (replicaAt metadata key).or (logs.findSome? (·.replica c key)) := by
  induction logs generalizing metadata with
  | nil => simp
  | cons log logs ih =>
    rw [List.foldl_cons, ih, replicaAt_mergeLog, Option.or_assoc, List.findSome?_cons]
    cases log.replica c key <;> rfl

end Merge

section Frame

variable {c : Config} {objects : Objects}

theorem storedCatalog_write {metadata : LogMetadata} {r : CallResult} {key : String × String}
    (hkey : splitURI (c.metadataStore.dataDir ++ metadataStorePath) = .ok key)
    (hr : r.Effective) :
    storedCatalog c
      (c.metadataStore.write objects metadataStorePath (.catalog metadata) r).1 = metadata := by
  simp [storedCatalog, SimpleStore.readCatalog, SimpleStore.write, Objects.write, Objects.at?,
    hkey, hr]

theorem storedCatalog_of_error {e : String}
    (hkey : splitURI (c.metadataStore.dataDir ++ metadataStorePath) = .error e) :
    storedCatalog c objects = ∅ := by
  simp [storedCatalog, SimpleStore.readCatalog, Objects.at?, hkey]

theorem metadataUpdate_of_failed {a : UpdateAnswers} (hw : a.write = .failed) :
    (metadataUpdate c objects a).1 = objects := by
  have hne : ¬ a.write.Effective := fun h => h hw
  unfold metadataUpdate
  split
  · rfl
  · cases hkey : splitURI (c.metadataStore.dataDir ++ metadataStorePath) with
    | error => simp [SimpleStore.write, Objects.write, hkey]
    | ok location => simp [SimpleStore.write, Objects.write, hkey, hne]

/-- The replicas of the catalog after an update whose write has an effect. -/
theorem replicaAt_metadataUpdate {a : UpdateAnswers} {logs : List ReportedLog}
    {location : String × String}
    (hkey : splitURI (c.metadataStore.dataDir ++ metadataStorePath) = .ok location)
    (hlogs : a.archiveDir.bind a.query = some logs) (hw : a.write ≠ .failed) (key : String) :
    replicaAt (storedCatalog c (metadataUpdate c objects a).1) key =
      (if true ∈ a.reads.take 6 then replicaAt (storedCatalog c objects) key else none).or
        (logs.findSome? (·.replica c key)) := by
  rw [metadataUpdate, hlogs]
  dsimp only
  rw [storedCatalog_write hkey hw, replicaAt_mergeLogs]
  split <;> rfl

/-- Every entry with a replica is given again, just as it is, by the first row that reports a
replica under its key. -/
def ReportsReplicas (c : Config) (objects : Objects) (logs : List ReportedLog) : Prop :=
  ∀ key entry, (storedCatalog c objects).lookup key = some entry → entry.replicaPath ≠ "" →
    logs.findSome? (·.replica c key) = some entry

theorem metadataUpdate_keepsReplicas_iff (c : Config) (objects : Objects) (a : UpdateAnswers) :
    KeepsReplicas c objects (metadataUpdate c objects a).1 ↔
      a.archiveDir.bind a.query = none ∨ a.write = .failed ∨ true ∈ a.reads.take 6 ∨
        ∃ logs, a.archiveDir.bind a.query = some logs ∧ ReportsReplicas c objects logs := by
  cases hlogs : a.archiveDir.bind a.query with
  | none =>
    have hsame : (metadataUpdate c objects a).1 = objects := by rw [metadataUpdate, hlogs]
    rw [hsame]
    exact iff_of_true (fun _ _ hl _ => hl) (.inl rfl)
  | some logs =>
    by_cases hw : a.write = .failed
    · rw [metadataUpdate_of_failed hw]
      exact iff_of_true (fun _ _ hl _ => hl) (.inr (.inl hw))
    cases hkey : splitURI (c.metadataStore.dataDir ++ metadataStorePath) with
    | error e =>
      have hempty : ∀ key, (storedCatalog c objects).lookup key = none := by
        intro key
        rw [storedCatalog_of_error hkey, Finmap.lookup_empty]
      apply iff_of_true
      · intro key entry hl
        rw [hempty key] at hl
        cases hl
      · right; right; right
        refine ⟨logs, rfl, fun key entry hl => ?_⟩
        rw [hempty key] at hl
        cases hl
    | ok location =>
      rw [keepsReplicas_iff]
      simp only [replicaAt_metadataUpdate hkey hlogs hw]
      by_cases hread : true ∈ a.reads.take 6
      · apply iff_of_true
        · intro key entry he
          rw [if_pos hread, he, Option.some_or]
        · exact .inr (.inr (.inl hread))
      · simp only [if_neg hread, Option.none_or]
        constructor
        · intro h
          right; right; right
          exact ⟨logs, rfl, fun key entry hl hne =>
            h key entry (replicaAt_eq_some.mpr ⟨hl, hne⟩)⟩
        · rintro (h | h | h | ⟨logs', hlogs', h⟩) key entry he
          · cases h
          · exact absurd h hw
          · exact absurd h hread
          · obtain rfl := Option.some.inj hlogs'
            obtain ⟨hl, hne⟩ := replicaAt_eq_some.mp he
            exact h key entry hl hne

end Frame

section Steps

variable {c : Config} {s : State}

/-- The hash record that a row finds in the store, if it is read. -/
def reportedLog (c : Config) (objects : Objects) (row : Option Row) (read : Bool) :
    ReportedLog where
  row := row
  hash := if read then row.bind fun row => c.hashStore.readHash objects (valueAt row "NAME")
    else none

theorem addRow_eq_mergeLog (row : Option Row) (read : Bool) (metadata : LogMetadata) :
    addRow c s row read metadata = mergeLog c metadata (reportedLog c s.objects row read) := by
  unfold addRow mergeLog ReportedLog.entry reportedLog
  cases row with
  | none => rfl
  | some row =>
    cases he : rowEntry c.parseTime row with
    | none => simp [he]
    | some entry =>
      have hsrc : valueAt row "NAME" = entry.srcPath := by
        simp only [rowEntry, Option.bind_eq_bind, Option.bind_eq_some_iff] at he
        obtain ⟨_, _, _, _, he⟩ := he
        rw [← Option.some.inj he]
      cases read with
      | false => simp [he]
      | true =>
        cases hh : c.hashStore.readHash s.objects entry.srcPath with
        | none => simp [he, hsrc, hh]
        | some hash => simp [he, hsrc, hh]

theorem run_updateRows (rows : List (Option Row × Bool)) (metadata : LogMetadata)
    (hh : s.holder = .updating (rows.map Prod.fst) metadata) :
    Runs.run (step c) s (rows.map fun r => .updateRow r.2) =
      some { s with holder := .updating [] ((rows.map fun r =>
        reportedLog c s.objects r.1 r.2).foldl (mergeLog c) metadata) } := by
  induction rows generalizing s metadata with
  | nil =>
    obtain ⟨objects, workers, holder⟩ := s
    obtain rfl := hh
    rfl
  | cons r rows ih =>
    have hstep : step c s (.updateRow r.2) = some { s with
        holder := .updating (rows.map Prod.fst) (addRow c s r.1 r.2 metadata) } := by
      simp [step, updateRow, hh]
    rw [List.map_cons, Runs.run, hstep, Option.bind_some, ih _ rfl, addRow_eq_mergeLog]
    rfl

/-- The steps of one update, with nothing in between, are one call of `metadataUpdate`. -/
theorem run_metadataUpdate (hidle : s.holder = .idle) (dir : String)
    (rows : List (Option Row × Bool)) (reads : List Bool) (r : CallResult) :
    Runs.run (step c) s (.updateStart (rows.map Prod.fst) reads ::
        (rows.map fun r => .updateRow r.2) ++ [.updateWrite r]) =
      some { s with objects := (metadataUpdate c s.objects ⟨some dir,
        fun _ => some (rows.map fun r => reportedLog c s.objects r.1 r.2), reads, r⟩).1 } := by
  have hstart : step c s (.updateStart (rows.map Prod.fst) reads) = some { s with
      holder := .updating (rows.map Prod.fst)
        (if true ∈ reads.take 6 then storedCatalog c s.objects else ∅) } := by
    simp [step, updateStart, hidle, State.catalog, storedCatalog]
  apply Runs.run_append.mpr
  refine ⟨_, Runs.run_cons.mpr ⟨_, hstart, run_updateRows rows _ rfl⟩, ?_⟩
  obtain ⟨objects, workers, holder⟩ := s
  obtain rfl := hidle
  rfl

end Steps

section Example

/-- The catalog names the replica of one log. -/
def cataloguedLog : Objects :=
  (∅ : Objects).insert ("bk", "mydb/catalog") (.catalog ((∅ : LogMetadata).insert "1-2-7"
    { crc32cHash := "4e2f", replicaPath := "gs://bk/mydb/archivelog/2021_09_13/o1_mf_1_7.arc"
      modTime := 1, srcPath := "/u03/archivelog/2021_09_13/o1_mf_1_7.arc"
      firstChange := "100", nextChange := "200", firstTime := 10, nextTime := 20
      completionTime := "", sequence := "7", incarnation := "2", thread := "1" }))

def readingAgent : Config := ⟨"gs://bk/mydb", 7, fun _ => none⟩

/-- The database reports no log and none of the six reads delivers the catalog. -/
theorem unread_catalog_overwritten :
    ¬ KeepsReplicas readingAgent cataloguedLog (metadataUpdate readingAgent cataloguedLog
      ⟨some "/u03/archivelog", fun _ => some [], [false, false, false, false, false, false],
        .ok⟩).1 := by
  intro h
  have hbefore : ((storedCatalog readingAgent cataloguedLog).lookup "1-2-7").map
      (·.replicaPath) = some "gs://bk/mydb/archivelog/2021_09_13/o1_mf_1_7.arc" := by
    decide +kernel
  have hafter : (storedCatalog readingAgent (metadataUpdate readingAgent cataloguedLog
      ⟨some "/u03/archivelog", fun _ => some [], [false, false, false, false, false, false],
        .ok⟩).1).lookup "1-2-7" = none := by
    decide +kernel
  obtain ⟨entry, hl, hpath⟩ := Option.map_eq_some_iff.mp hbefore
  have hkept := h "1-2-7" entry hl (by rw [hpath]; decide)
  rw [hafter] at hkept
  cases hkept

end Example

end ElCarro.Pitr
