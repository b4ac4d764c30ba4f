import ElCarro.Lib.SlashPath
import ElCarro.Lib.WorkerPool
import ElCarro.Pitr.Agent
import ElCarro.Pitr.Windows

/-! # Copying logs with a pool of workers

Replication and staging hand files to four workers over an unbuffered channel. A
worker stops when the context is cancelled, but the producer does not look at the
context while it sends. Staging succeeds when no worker reports an error, and then
the logs of the catalog that touch the interval have all been copied.
-/

namespace ElCarro.Pitr

open GoTime K8s Api

deriving instance DecidableEq for SrcDest

abbrev replicationThreadCount : Nat := 4

section Replication

/-- What `WalkDir` comes to, with its path below the source directory. -/
inductive WalkEntry where
  | dir (sub : String)
  | file (path sub : String)

/-- The file to replicate; a directory is created by the producer itself. -/
def WalkEntry.srcDest (destDir : String) : WalkEntry → Option SrcDest
  | .dir _ => none
  | .file path sub =>
    some ⟨path, if ['/'] <:+ destDir.toList then destDir ++ sub else destDir ++ "/" ++ sub⟩

/-- `runReplication` when its workers have started. -/
def startReplication (n : Nat) (destDir : String) (entries : List WalkEntry) :
    WorkerPool.State SrcDest n :=
  WorkerPool.init n (entries.map (WalkEntry.srcDest destDir))

/-- The walk ends at the first entry with an error. -/
def replicationStep {n : Nat} : WorkerPool.State SrcDest n → WorkerPool.Event n →
    Option (WorkerPool.State SrcDest n) :=
  WorkerPool.step true

end Replication

section Stage

/-- `filepath.Join(consts.RMANStagingDir, "pitr")`. -/
def stagingDir : List Char := "/u03/app/oracle/rmanstaging/pitr".toList

/-- The name under which a log is staged. -/
def stagedName (entry : LogMetadataEntry) : List Char := SlashPath.base entry.srcPath.toList

/-- Where a log is copied from and to. -/
def stageItem (entry : LogMetadataEntry) : SrcDest :=
  ⟨entry.replicaPath, String.ofList (SlashPath.join stagingDir (stagedName entry))⟩

/-- What the calls around the copying answer, an error being its message. -/
structure StageCalls where
  mkdirAll : Option String
  newGcsClient : Option String
  mkdirp : Option String
  catalog : Option String

inductive StageFailure where
  | select (err : StageError)
  | call (message : String)
  | copyErrors (errCount : Nat)
  deriving DecidableEq

/-- `StageLogs` when its workers have started. -/
def startStaging (n : Nat) (items : List SrcDest) : WorkerPool.State SrcDest n :=
  WorkerPool.init n (items.map some)

/-- The loop over the logs to stage meets no errors of its own. -/
def stagingStep {n : Nat} : WorkerPool.State SrcDest n → WorkerPool.Event n →
    Option (WorkerPool.State SrcDest n) :=
  WorkerPool.step false

def errCount (finished : List (SrcDest × Bool)) : Nat := finished.countP fun f => !f.2

/-- The copying of the logs, undefined until the last worker is done. -/
def copyLogs {n : Nat} (items : List SrcDest) (events : List (WorkerPool.Event n)) :
    Option (Except StageFailure (List SrcDest)) :=
  match Runs.run stagingStep (startStaging n items) events with
  | none => none
  | some s =>
    if WorkerPool.Done s then
      some (if errCount s.finished = 0 then .ok (s.finished.map Prod.fst)
        else .error (.copyErrors (errCount s.finished)))
    else none

/--
The end of `stageAndCatalog` once the logs are selected. The map of the catalog is traversed in
any order; nothing is copied if there is nothing to stage.
-/
def stageSelected {n : Nat} (calls : StageCalls) (metadata : LogMetadata) (selected : Finset String)
    (order : List String) (events : List (WorkerPool.Event n)) :
    Option (Except StageFailure (List SrcDest)) :=
  if order.Nodup ∧ order.toFinset = selected then
    let items := order.map fun key => stageItem (entryAt metadata key)
    let onGcs := items.head?.any fun item => gsPrefix.toList.isPrefixOf item.src.toList
    let copied : Option (Except StageFailure (List SrcDest)) :=
      if items = [] then some (.ok [])
      else match (if onGcs then calls.newGcsClient else none), calls.mkdirp with
        | some message, _ => some (.error (.call message))
        | none, some message =>
          some (.error (.call ("failed to create the stage dir: " ++ message)))
        | none, none => copyLogs items events
    copied.map fun
      | .error failure => .error failure
      | .ok files =>
        match calls.catalog with
        | some message => .error (.call ("failed to catalog redo logs: " ++ message))
        | none => .ok files
  else none

/-- `stageAndCatalog` as a whole; the files that were copied when it succeeds. -/
def stageAndCatalogAll {n : Nat} (parseInt : String → Option Int) (metadata : Option LogMetadata)
    (input : PitrRestoreInput) (calls : StageCalls) (order : List String)
    (events : List (WorkerPool.Event n)) : Option (Except StageFailure (List SrcDest)) :=
  match included parseInt input with
  | .error message => some (.error (.select (.noInterval message)))
  | .ok want =>
    match calls.mkdirAll with
    | some message =>
      some (.error (.call ("failed to create redo logs staging dir: " ++ message)))
    | none =>
      match metadata, stageLogs metadata want with
      | _, .error err => some (.error (.select err))
      | none, .ok _ => none
      | some metadata, .ok selected => stageSelected calls metadata selected order events

/-- The requested interval, by time if an end time is given. -/
def requested (input : PitrRestoreInput) : Int × Int :=
  match input.endTime, input.startTime with
  | some endTime, some startTime => (startTime, endTime)
  | _, _ => (input.startScn, input.endScn)

/-- What a log spans in the measure of the request, if its SCNs can be read. -/
def span (parseInt : String → Option Int) (input : PitrRestoreInput) (entry : LogMetadataEntry) :
    Option (Int × Int) :=
  match input.endTime with
  | some _ => some (entry.firstTime, entry.nextTime)
  | none =>
    match parseInt entry.firstChange, parseInt entry.nextChange with
    | some entryS, some entryE => some (entryS, entryE)
    | _, _ => none

/-- The log touches the requested interval, or it cannot be told. -/
def Touches (parseInt : String → Option Int) (input : PitrRestoreInput)
    (entry : LogMetadataEntry) : Prop :=
  ∀ s ∈ span parseInt input entry, (requested input).1 ≤ s.2 ∧ s.1 ≤ (requested input).2

/-- What is in the staging directory after staging has succeeded. -/
structure Staged (parseInt : String → Option Int) (metadata : LogMetadata)
    (input : PitrRestoreInput) (staged : Finset String) (files : List SrcDest) : Prop where
  /-- The logs of the catalog that touch the interval, of whatever incarnation. -/
  selected : ∀ key, key ∈ staged ↔
    ∃ entry, metadata.lookup key = some entry ∧ Touches parseInt input entry
  /-- Each of them was copied once, from its replica. -/
  copied : (files : Multiset SrcDest) =
    staged.val.map fun key => stageItem (entryAt metadata key)
  replicated : ∀ key ∈ staged, (entryAt metadata key).replicaPath ≠ ""
  /-- What the catalog covers of the interval is covered. -/
  covers : ∀ p, (requested input).1 ≤ p → p ≤ (requested input).2 →
    ∀ key entry s, metadata.lookup key = some entry → span parseInt input entry = some s →
      s.1 ≤ p → p ≤ s.2 → key ∈ staged
  /-- No log of the catalog between two staged ones is left out. -/
  gapless : ∀ key₁ ∈ staged, ∀ key₂ ∈ staged, ∀ s₁ s₂,
    span parseInt input (entryAt metadata key₁) = some s₁ →
    span parseInt input (entryAt metadata key₂) = some s₂ →
    ∀ key entry s, metadata.lookup key = some entry → span parseInt input entry = some s →
      s.1 ≤ s.2 → s₁.2 ≤ s.1 → s.2 ≤ s₂.1 → key ∈ staged
  /-- Logs with different file names are staged to different files. -/
  apart : ∀ key₁ ∈ staged, ∀ key₂ ∈ staged,
    SlashPath.Plain (stagedName (entryAt metadata key₁)) →
    SlashPath.Plain (stagedName (entryAt metadata key₂)) →
    stagedName (entryAt metadata key₁) ≠ stagedName (entryAt metadata key₂) →
      (stageItem (entryAt metadata key₁)).dest ≠ (stageItem (entryAt metadata key₂)).dest

end Stage

section Success

variable {n : Nat} {parseInt : String → Option Int} {metadata : LogMetadata}
  {input : PitrRestoreInput} {calls : StageCalls} {order : List String}
  {events : List (WorkerPool.Event n)} {selected : Finset String} {files items : List SrcDest}
  {want : LogMetadataEntry → Bool} {entry : LogMetadataEntry} {key : String}

theorem included_eq_true_iff (h : included parseInt input = .ok want) :
    want entry = true ↔ Touches parseInt input entry := by
  unfold included at h
  split at h
  · cases h
  · next endTime startTime he hs =>
    obtain rfl := Except.ok.inj h
    simp [Touches, span, requested, he, hs]
  · next he =>
    split at h
    · obtain rfl := Except.ok.inj h
      simp only [Touches, span, requested, he]
      split <;> simp_all
    · cases h

/-- A log is wanted by staging exactly if the catalog has it and it touches the interval. -/
theorem mem_selected (h : included parseInt input = .ok want)
    (hsel : stageLogs (some metadata) want = .ok selected) :
    (key ∈ selected ↔ ∃ entry, metadata.lookup key = some entry ∧ Touches parseInt input entry) ∧
      (key ∈ selected → (entryAt metadata key).replicaPath ≠ "") := by
  unfold stageLogs at hsel
  dsimp only at hsel
  split at hsel
  · cases hsel
  · split at hsel
    · next hreplicated =>
      obtain rfl := Except.ok.inj hsel
      constructor
      · rw [Finset.mem_filter, Finmap.mem_keys, ← Finmap.lookup_isSome]
        constructor
        · rintro ⟨hmem, hwant⟩
          obtain ⟨entry, hl⟩ := Option.isSome_iff_exists.mp hmem
          rw [entryAt, hl, Option.getD_some, included_eq_true_iff h] at hwant
          exact ⟨entry, hl, hwant⟩
        · rintro ⟨entry, hl, htouch⟩
          rw [entryAt, hl, Option.getD_some, included_eq_true_iff h]
          exact ⟨rfl, htouch⟩
      · intro hkey hpath
        exact Finset.eq_empty_iff_forall_notMem.mp hreplicated key
          (Finset.mem_filter.mpr ⟨hkey, hpath⟩)
    · cases hsel

/-- If no worker reports an error, every log was copied. -/
theorem copyLogs_perm (h : copyLogs items events = some (.ok files)) : files.Perm items := by
  unfold copyLogs at h
  split at h
  · cases h
  · next s hrun =>
    split at h
    · next hdone =>
      split at h
      · obtain rfl := Except.ok.inj (Option.some.inj h)
        have hperm := WorkerPool.finished_perm_of_done hrun hdone
        have hsome : (items.map some).reduceOption = items := by
          change (items.map some).filterMap id = items
          rw [List.filterMap_map]
          exact List.filterMap_some
        rwa [hsome] at hperm
      · cases h
    · cases h

theorem stageSelected_eq_ok
    (h : stageSelected calls metadata selected order events = some (.ok files)) :
    (files : Multiset SrcDest) = selected.val.map fun key => stageItem (entryAt metadata key) := by
  unfold stageSelected at h
  split at h
  · next horder =>
    obtain ⟨hnodup, rfl⟩ := horder
    have hitems : files.Perm (order.map fun key => stageItem (entryAt metadata key)) := by
      obtain ⟨copied, hcopied, heq⟩ := Option.map_eq_some_iff.mp h
      -- the files are those of the copying, whose errors are handed on
      have hfiles : copied = .ok files := by
        cases copied with
        | error failure => cases heq
        | ok copied =>
          dsimp only at heq
          split at heq
          · cases heq
          · exact heq
      subst hfiles
      split at hcopied
      · next hnil =>
        obtain rfl := Except.ok.inj (Option.some.inj hcopied)
        rw [hnil]
      · split at hcopied
        · cases hcopied
        · cases hcopied
        · exact copyLogs_perm hcopied
    rw [List.toFinset_val, hnodup.dedup, Multiset.map_coe]
    exact Multiset.coe_eq_coe.mpr hitems
  · cases h

theorem stageAndCatalogAll_eq_ok {catalog : Option LogMetadata}
    (h : stageAndCatalogAll parseInt catalog input calls order events = some (.ok files)) :
    ∃ metadata want selected, catalog = some metadata ∧ included parseInt input = .ok want ∧
      stageLogs (some metadata) want = .ok selected ∧
      stageSelected calls metadata selected order events = some (.ok files) := by
  unfold stageAndCatalogAll at h
  split at h
  · cases h
  · next want hwant =>
    split at h
    · cases h
    · split at h
      · cases h
      · cases h
      · next metadata selected hsel => exact ⟨metadata, want, selected, rfl, hwant, hsel, h⟩

end Success

/--
When staging succeeds, the logs of the catalog that touch the interval are staged, and no others.
Gaps and foreign incarnations of the catalog are not looked at.
-/
theorem staged_of_success {n : Nat} (parseInt : String → Option Int)
    (catalog : Option LogMetadata) (input : PitrRestoreInput) (calls : StageCalls)
    (order : List String) (events : List (WorkerPool.Event n)) (files : List SrcDest)
    (h : stageAndCatalogAll parseInt catalog input calls order events = some (.ok files)) :
    ∃ metadata staged, catalog = some metadata ∧ Staged parseInt metadata input staged files := by
  obtain ⟨metadata, want, selected, rfl, hwant, hsel, hrest⟩ := stageAndCatalogAll_eq_ok h
  have hmem : ∀ key, key ∈ selected ↔ ∃ entry, metadata.lookup key = some entry ∧
      Touches parseInt input entry := fun key => (mem_selected hwant hsel).1
  have htouch : ∀ key ∈ selected, Touches parseInt input (entryAt metadata key) := by
    intro key hkey
    obtain ⟨entry, hl, ht⟩ := (hmem key).mp hkey
    rwa [entryAt, hl]
  refine ⟨metadata, selected, rfl, hmem, stageSelected_eq_ok hrest,
    fun key => (mem_selected hwant hsel).2, ?_, ?_, ?_⟩
  · intro p hstart hstop key entry s hl hs hfirst hnext
    refine (hmem key).mpr ⟨entry, hl, fun s' hs' => ?_⟩
    obtain rfl : s = s' := Option.some.inj (hs.symm.trans hs')
    exact ⟨hstart.trans hnext, hfirst.trans hstop⟩
  · intro key₁ h₁ key₂ h₂ s₁ s₂ hs₁ hs₂ key entry s hl hs hle hafter hbefore
    refine (hmem key).mpr ⟨entry, hl, fun s' hs' => ?_⟩
    obtain rfl : s = s' := Option.some.inj (hs.symm.trans hs')
    have hlow := (htouch key₁ h₁ s₁ hs₁).1
    have hhigh := (htouch key₂ h₂ s₂ hs₂).2
    omega
  · intro key₁ _ key₂ _ hp₁ hp₂ hne heq
    have hjoin := congrArg String.toList heq
    simp only [stageItem, String.toList_ofList] at hjoin
    exact hne (SlashPath.join_injective (by decide) hp₁ hp₂ hjoin)

section Gaps

def midnight : Time := date 2021 9 13

/-- A replicated log of some minutes of the day. -/
def archivedAt (incarnation dir : String) (first next : Int) : LogMetadataEntry where
  crc32cHash := ""
  replicaPath := "gs://bk/mydb/" ++ dir ++ "/o1_mf_1_1_.arc"
  modTime := 0
  srcPath := "/u03/app/oracle/archivelog/" ++ dir ++ "/o1_mf_1_1_.arc"
  firstChange := ""
  nextChange := ""
  firstTime := midnight + first * minute
  nextTime := midnight + next * minute
  completionTime := ""
  sequence := "1"
  incarnation := incarnation
  thread := "1"

/-- Nothing is archived between the tenth and the thirtieth minute. -/
def gappedCatalog : LogMetadata :=
  ((∅ : LogMetadata).insert "1-1-1" (archivedAt "1" "2021_09_12" 0 10)).insert "1-2-1"
    (archivedAt "2" "2021_09_13" 30 40)

def fiveToThirtyFive : PitrRestoreInput :=
  ⟨some (midnight + 5 * minute), some (midnight + 35 * minute), 0, 0⟩

def noErrors : StageCalls := ⟨none, none, none, none⟩

/-- Two workers copy a log each. -/
def twoCopies : List (WorkerPool.Event replicationThreadCount) :=
  [.pass true, .handOver 0, .pass true, .handOver 1, .close, .finish 1 true, .finish 0 true,
    .drain 0, .drain 1, .drain 2, .drain 3]

theorem stage_gappedCatalog :
    stageAndCatalogAll (fun _ => none) (some gappedCatalog) fiveToThirtyFive noErrors
        ["1-1-1", "1-2-1"] twoCopies =
      some (.ok [stageItem (archivedAt "1" "2021_09_12" 0 10),
        stageItem (archivedAt "2" "2021_09_13" 30 40)]) := by
  decide +kernel

theorem two_logs_staged :
    ∃ metadata staged, some gappedCatalog = some metadata ∧
      Staged (fun _ => none) metadata fiveToThirtyFive staged
        [stageItem (archivedAt "1" "2021_09_12" 0 10),
          stageItem (archivedAt "2" "2021_09_13" 30 40)] :=
  staged_of_success _ _ _ _ _ _ _ stage_gappedCatalog

/--
A request for one incarnation succeeds although the catalog has a gap in the interval, and it
stages a log of another incarnation over the file of the first one.
-/
theorem gap_and_foreign_log_staged :
    stageAndCatalogAll (fun _ => none) (some gappedCatalog) fiveToThirtyFive noErrors
        ["1-1-1", "1-2-1"] twoCopies =
      some (.ok [stageItem (archivedAt "1" "2021_09_12" 0 10),
        stageItem (archivedAt "2" "2021_09_13" 30 40)]) ∧
    (archivedAt "1" "2021_09_12" 0 10).nextTime < midnight + 20 * minute ∧
    midnight + 20 * minute < (archivedAt "2" "2021_09_13" 30 40).firstTime ∧
    (requested fiveToThirtyFive).1 < midnight + 20 * minute ∧
    midnight + 20 * minute < (requested fiveToThirtyFive).2 ∧
    (archivedAt "2" "2021_09_13" 30 40).incarnation ≠ "1" ∧
    (stageItem (archivedAt "1" "2021_09_12" 0 10)).src ≠
      (stageItem (archivedAt "2" "2021_09_13" 30 40)).src ∧
    (stageItem (archivedAt "1" "2021_09_12" 0 10)).dest =
      (stageItem (archivedAt "2" "2021_09_13" 30 40)).dest := by
  refine ⟨stage_gappedCatalog, by decide +kernel, by decide +kernel, by decide +kernel,
    by decide +kernel, by decide +kernel, by decide +kernel, by decide +kernel⟩

end Gaps

section Stuck

/--
The producer never waits for workers that are gone if the context is not cancelled before the
last file is handed over. If it is, the producer of either function may wait forever.
-/
theorem producer_never_stuck (n : Nat) (hn : 0 < n) (destDir : String)
    (entries : List WalkEntry) (items : List SrcDest) :
    (∀ es, Runs.Meets replicationStep WorkerPool.Timely (startReplication n destDir entries) es →
      Runs.Always replicationStep (fun s => ¬ WorkerPool.Stuck s)
        (startReplication n destDir entries) es) ∧
    (∀ es, Runs.Meets stagingStep WorkerPool.Timely (startStaging n items) es →
      Runs.Always stagingStep (fun s => ¬ WorkerPool.Stuck s) (startStaging n items) es) ∧
    (∀ es s, Runs.run replicationStep (startReplication n destDir entries) es = some s →
      s.cancelled = true → s.producer.items ≠ [] →
        ∃ fs t, Runs.run replicationStep s fs = some t ∧ WorkerPool.Stuck t) ∧
    ∀ es s, Runs.run stagingStep (startStaging n items) es = some s →
      s.cancelled = true → s.producer.items ≠ [] →
        ∃ fs t, Runs.run stagingStep s fs = some t ∧ WorkerPool.Stuck t :=
  ⟨fun _ hm => WorkerPool.never_stuck hn _ hm, fun _ hm => WorkerPool.never_stuck hn _ hm,
    fun _ _ _ hc hne => WorkerPool.exists_run_stuck hc hne,
    fun _ _ _ hc hne => WorkerPool.exists_run_stuck hc hne⟩

def oneFile : List WalkEntry :=
  [.dir "archivelog", .file "/u03/archivelog/o1_mf_1_1_.arc" "archivelog/o1_mf_1_1_.arc"]

/-- A run that is cancelled only after the last file. -/
def lateCancel : List (WorkerPool.Event replicationThreadCount) :=
  [.pass true, .pass true, .handOver 2, .cancel, .close, .quit 0, .finish 2 true, .drain 2]

theorem late_cancel_not_stuck :
    Runs.Always replicationStep (fun s => ¬ WorkerPool.Stuck s)
      (startReplication replicationThreadCount "gs://bk/mydb" oneFile) lateCancel :=
  (producer_never_stuck replicationThreadCount (by decide) "gs://bk/mydb" oneFile []).1 lateCancel
    (by decide)

/-- The timeout of an hour passes before the walk comes to the file. -/
def earlyCancel : List (WorkerPool.Event replicationThreadCount) :=
  [.pass true, .cancel, .quit 0, .quit 1, .quit 2, .quit 3, .pass true]

theorem early_cancel_stuck :
    ∃ s, Runs.run replicationStep (startReplication replicationThreadCount "gs://bk/mydb" oneFile)
        earlyCancel = some s ∧
      WorkerPool.Stuck s := by
  exact ⟨_, rfl, ⟨_, _, rfl⟩, by decide +kernel⟩

end Stuck

end ElCarro.Pitr
