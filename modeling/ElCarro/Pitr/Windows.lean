import Mathlib.Data.List.Sort
import ElCarro.Instance.FindBackup
import ElCarro.Pitr.Log

/-! # Recovery windows and staging of logs

The agent joins replicated logs to ranges, the controller cuts each range down to
what follows its first Backup. A restore stages the logs of its interval, and
refuses to start when one of them has no replica.
-/

namespace ElCarro.Pitr

open GoTime K8s Api
open Instance (Catalog)

section Merge

variable (metadata : LogMetadata)

/-- A missing key reads as the zero entry. -/
def entryAt (key : String) : LogMetadataEntry :=
  (metadata.lookup key).getD ⟨⟨"", "", 0⟩, "", "", "", 0, 0, "", "", "", ""⟩

/-- The keys in an order that `sort.Slice` may leave them in. -/
def SortedKeys (keys : List String) : Prop :=
  keys.Nodup ∧ (∀ k, k ∈ keys ↔ k ∈ metadata) ∧
    keys.Pairwise fun k k' => (entryAt metadata k).firstTime ≤ (entryAt metadata k').firstTime

/-- The loop of `Merge` with the first and the last key of the current range. -/
def mergeLoop : List String → String → String → List (String × String)
  | [], currStartKey, currEndKey => if currStartKey ≠ "" then [(currStartKey, currEndKey)] else []
  | k :: keys, currStartKey, currEndKey =>
    if (entryAt metadata k).replicaPath = "" then mergeLoop keys currStartKey currEndKey
    else if currStartKey = "" then mergeLoop keys k k
    else if (entryAt metadata currEndKey).nextTime = (entryAt metadata k).firstTime then
      mergeLoop keys currStartKey k
    else (currStartKey, currEndKey) :: mergeLoop keys k k

def merge (keys : List String) : List (String × String) := mergeLoop metadata keys "" ""

structure Instant where
  time : Time
  scn : String
  incarnation : String

structure Range where
  start : Instant
  stop : Instant

/-- `Status` of the agent: the ranges of logs that follow one another. -/
def recoveryWindows (keys : List String) : List Range :=
  (merge metadata keys).map fun (startKey, endKey) =>
    let startLog := entryAt metadata startKey
    let endLog := entryAt metadata endKey
    ⟨⟨startLog.firstTime, startLog.firstChange, startLog.incarnation⟩,
      ⟨endLog.nextTime, endLog.nextChange, endLog.incarnation⟩⟩

end Merge

section Status

structure TimeWindow where
  beginTime : Time
  endTime : Time
  deriving DecidableEq

structure SCNWindow where
  beginSCN : String
  endSCN : String
  deriving DecidableEq

structure PITRStatus where
  conditions : List Condition
  availableRecoveryWindowTime : List TimeWindow
  availableRecoveryWindowSCN : List SCNWindow
  currentDatabaseIncarnation : String

variable (cat : Catalog)

/-- The Backups that a PITR object counts for its instance. -/
def applicableBackups (p : PITR) (inst : Instance) : List Backup :=
  cat.backups.filter fun b =>
    b.ns = inst.ns ∧ Selects pitrLabel p.name b.labels ∧
      Selects incarnationLabel inst.status.currentDatabaseIncarnation b.labels ∧
      b.deletionTimestamp = none

/-- Succeeded Backups under the second in which they were taken, in the order of the list. -/
def timeToBackups (backups : List Backup) : List (Int × Backup) :=
  backups.filterMap fun b =>
    if b.status.phase = .succeeded then
      (cat.parseTime (valueAt b.annotations timestampAnnotation)).map fun t => (unix t, b)
    else none

/-- A window starts with the first Backup in the range, if there is one. -/
def cutWindow (backups : List (Int × Backup)) (w : Range) : Option (TimeWindow × SCNWindow) :=
  let keys := (backups.map (·.1)).dedup.insertionSort (· ≤ ·)
  match keys.find? (unix w.start.time ≤ ·) with
  | none => none
  | some key =>
    if unix w.stop.time < key then none
    else
      -- a later Backup of the same second replaces an earlier one in the map
      let scn := match backups.reverse.find? (·.1 = key) with
        | some (_, b) => valueAt b.annotations scnAnnotation
        | none => ""
      some (⟨ofUnix key, w.stop.time⟩, ⟨scn, w.stop.scn⟩)

def updateStatus (p : PITR) (inst : Instance) (windows : Except String (List Range)) (now : Time)
    (conditions : List Condition) : Except String PITRStatus :=
  match cat.listBackupsErr, windows with
  | none, .ok windows =>
    let cut := windows.filterMap (cutWindow (timeToBackups cat (applicableBackups cat p inst)))
    .ok
      { conditions :=
          if cut = [] then conditions
          else upsert now .ready .true .createComplete "" conditions
        availableRecoveryWindowTime := cut.map (·.1)
        availableRecoveryWindowSCN := cut.map (·.2)
        currentDatabaseIncarnation := inst.status.currentDatabaseIncarnation }
  | _, _ => .error "failed to update available recovery window"

end Status

section Stage

/-- The interval of a point-in-time restore, in time or in SCNs. -/
structure PitrRestoreInput where
  startTime : Option Time
  endTime : Option Time
  startScn : Int
  endScn : Int

/-- The logs that `stageAndCatalog` wants: those that touch the closed interval. -/
def included (parseInt : String → Option Int) (input : PitrRestoreInput) :
    Except String (LogMetadataEntry → Bool) :=
  match input.endTime, input.startTime with
  | some _, none => .error "failed to find recover end time in req"
  | some endTime, some startTime =>
    .ok fun entry => ¬ (entry.nextTime < startTime ∨ endTime < entry.firstTime)
  | none, _ =>
    if input.endScn ≠ 0 then
      .ok fun entry =>
        match parseInt entry.firstChange, parseInt entry.nextChange with
        | some entryS, some entryE => ¬ (entryE < input.startScn ∨ input.endScn < entryS)
        -- an entry whose SCNs cannot be read is taken along
        | _, _ => true
    else .error "either start SCN or timestamp must be specified in req"

inductive StageError where
  | readMetadata
  | emptyMetadata
  | notReplicated (keys : Finset String)
  | noInterval (message : String)
  deriving DecidableEq

/-- `StageLogs` up to the copying: the keys of the logs to copy. -/
def stageLogs (metadata : Option LogMetadata) (want : LogMetadataEntry → Bool) :
    Except StageError (Finset String) :=
  match metadata with
  | none => .error .readMetadata
  | some metadata =>
    if metadata = ∅ then .error .emptyMetadata
    else
      let wanted := metadata.keys.filter fun k => want (entryAt metadata k)
      let notReplicated := wanted.filter fun k => (entryAt metadata k).replicaPath = ""
      if notReplicated = ∅ then .ok wanted else .error (.notReplicated notReplicated)

/-- `stageAndCatalog` up to the copying. -/
def stageAndCatalog (parseInt : String → Option Int) (metadata : Option LogMetadata)
    (input : PitrRestoreInput) : Except StageError (Finset String) :=
  match included parseInt input with
  | .error message => .error (.noInterval message)
  | .ok want => stageLogs metadata want

end Stage

end ElCarro.Pitr
