import ElCarro.Pitr.Storage

/-! # Loops of the PITR agent

Replication workers copy logs and record their hashes, the metadata update extends
the catalog and the retention loop prunes it. The last two hold the lock of the
catalog from reading to writing it; a storage call is one step, and steps of
different loops interleave freely.
-/

namespace ElCarro.Pitr

open GoTime K8s Api

structure Config where
  dest : String
  retentionDays : Int
  /-- `time.Parse` with the layout RFC3339. -/
  parseTime : String → Option Time

namespace Config

variable (c : Config)

/-- The destination with a slash at its end. -/
def mDir : String := if ['/'] <:+ c.dest.toList then c.dest else c.dest ++ "/"

def hashStore : SimpleStore := ⟨c.mDir ++ "hash/"⟩

def metadataStore : SimpleStore := ⟨c.mDir⟩

end Config

def metadataStorePath : String := "catalog"

structure SrcDest where
  src : String
  dest : String

/-- Where a replication worker stands with one file. -/
inductive Worker where
  | idle
  | copying (sd : SrcDest)
  | validating (sd : SrcDest)
  | recording (sd : SrcDest) (hash : String)

/-- Who holds the lock of the catalog, with what it has in memory. -/
inductive Holder where
  | idle
  | updating (rows : List (Option Row)) (metadata : LogMetadata)
  /-- `pending` is the entry whose replica was deleted and whose record is to follow. -/
  | cleaning (expire : Time) (todo kept : LogMetadata)
      (pending : Option (String × LogMetadataEntry))

structure State where
  objects : Objects
  workers : Nat → Worker
  holder : Holder

def State.empty : State := ⟨∅, fun _ => .idle, .idle⟩

/-- The catalog as it is stored. -/
def State.catalog (c : Config) (s : State) : Option LogMetadata :=
  c.metadataStore.readCatalog s.objects metadataStorePath

/-- Steps of the loops, each with what the database, the clock and the storage answer. -/
inductive Event where
  | syncStart (w : Nat) (src sub : String) (read : Bool) (mtime : Option Time)
  | syncCopy (w : Nat) (read : Bool) (crc32c : String) (r : CallResult)
  | syncValidate (w : Nat) (srcHash : Option String) (attrs : Bool)
  | syncRecord (w : Nat) (mtime : Option Time) (r : CallResult)
  | updateStart (rows : List (Option Row)) (reads : List Bool)
  | updateRow (read : Bool)
  | updateWrite (r : CallResult)
  | cleanStart (now : Time) (read : Bool)
  | cleanVisit (key : String) (r : CallResult)
  | cleanRecord (r : CallResult)
  | cleanWrite (r : CallResult)
  | restart

section Replication

variable (c : Config)

/-- `changed`: an unknown answer counts as a change. -/
def changed (s : State) (src : String) (read : Bool) (mtime : Option Time) : Bool :=
  match (if read then c.hashStore.readHash s.objects src else none), mtime with
  | some stored, some current => stored.replicaPath = "" ∨ current ≠ stored.modTime
  | _, _ => true

/-- `validateHash`: the checksums of the source and of the replica, if they agree. -/
def validateHash (s : State) (dest : String) (srcHash : Option String) (attrs : Bool) :
    Option String :=
  match srcHash, (if attrs then s.objects.at? dest else none) with
  | some src, some (.log crc32c) => if src = crc32c then some crc32c else none
  | _, _ => none

def setWorker (s : State) (w : Nat) (worker : Worker) : State :=
  { s with workers := Function.update s.workers w worker }

def syncStart (s : State) (w : Nat) (src sub : String) (read : Bool) (mtime : Option Time) :
    Option State :=
  match s.workers w with
  | .idle =>
    if changed c s src read mtime then
      some (setWorker s w (.copying ⟨src, c.mDir ++ sub⟩))
    else some s
  | _ => none

/-- The copy of a log; a source that cannot be read leaves the destination alone. -/
def syncCopy (s : State) (w : Nat) (read : Bool) (crc32c : String) (r : CallResult) :
    Option State :=
  match s.workers w with
  | .copying sd =>
    if read then
      let written := s.objects.write sd.dest (.log crc32c) r
      some (setWorker { s with objects := written.1 } w
        (if written.2 then .validating sd else .idle))
    else some (setWorker s w .idle)
  | _ => none

def syncValidate (s : State) (w : Nat) (srcHash : Option String) (attrs : Bool) :
    Option State :=
  match s.workers w with
  | .validating sd =>
    match validateHash s sd.dest srcHash attrs with
    | some hash => some (setWorker s w (.recording sd hash))
    | none => some (setWorker s w .idle)
  | _ => none

/-- The record is written even when the time of the source could not be read. -/
def syncRecord (s : State) (w : Nat) (mtime : Option Time) (r : CallResult) : Option State :=
  match s.workers w with
  | .recording sd hash =>
    let written := c.hashStore.write s.objects sd.src (.hash ⟨hash, sd.dest, mtime.getD 0⟩) r
    some (setWorker { s with objects := written.1 } w .idle)
  | _ => none

end Replication

section Update

variable (c : Config)

/-- The catalog is read at most six times; without an answer the update starts from nothing. -/
def updateStart (s : State) (rows : List (Option Row)) (reads : List Bool) : Option State :=
  match s.holder with
  | .idle =>
    let metadata := if true ∈ reads.take 6 then (s.catalog c).getD ∅ else ∅
    some { s with holder := .updating rows metadata }
  | _ => none

/-- One row of the view; an entry that has its replica already is left as it is. -/
def addRow (s : State) (row : Option Row) (read : Bool) (metadata : LogMetadata) :
    LogMetadata :=
  match row.bind fun row => (rowEntry c.parseTime row).map (Prod.mk (rowKey row)) with
  | none => metadata
  | some (key, entry) =>
    if ∃ existing ∈ metadata.lookup key, existing.replicaPath ≠ "" then metadata
    else
      match (if read then c.hashStore.readHash s.objects entry.srcPath else none) with
      | some hash => metadata.insert key { entry with toLogHashEntry := hash }
      | none => metadata.insert key entry

def updateRow (s : State) (read : Bool) : Option State :=
  match s.holder with
  | .updating (row :: rows) metadata =>
    some { s with holder := .updating rows (addRow c s row read metadata) }
  | _ => none

def updateWrite (s : State) (r : CallResult) : Option State :=
  match s.holder with
  | .updating [] metadata =>
    let written := c.metadataStore.write s.objects metadataStorePath (.catalog metadata) r
    some { s with objects := written.1, holder := .idle }
  | _ => none

end Update

section Cleanup

variable (c : Config)

/-- `cleanUpLogs` gives up when the catalog cannot be read. -/
def cleanStart (s : State) (now : Time) (read : Bool) : Option State :=
  match s.holder with
  | .idle =>
    match (if read then s.catalog c else none) with
    | some metadata =>
      some { s with holder := .cleaning (expireTime now c.retentionDays) metadata ∅ none }
    | none => some s
  | _ => none

/-- One entry of the catalog, in any order; the replica of an expired log is deleted. -/
def cleanVisit (s : State) (key : String) (r : CallResult) : Option State :=
  match s.holder with
  | .cleaning expire todo kept none =>
    match todo.lookup key with
    | none => none
    | some entry =>
      let keep := Holder.cleaning expire (todo.erase key) (kept.insert key entry) none
      if Expired expire entry then
        let deleted := s.objects.delete entry.replicaPath r
        some { s with
          objects := deleted.1
          holder :=
            if deleted.2 then .cleaning expire (todo.erase key) kept (some (key, entry))
            else keep }
      else some { s with holder := keep }
  | _ => none

/-- The hash record of a deleted log; the entry goes only when this succeeds too. -/
def cleanRecord (s : State) (r : CallResult) : Option State :=
  match s.holder with
  | .cleaning expire todo kept (some (key, entry)) =>
    let deleted := c.hashStore.delete s.objects entry.srcPath r
    some { s with
      objects := deleted.1
      holder := .cleaning expire todo (if deleted.2 then kept else kept.insert key entry) none }
  | _ => none

def cleanWrite (s : State) (r : CallResult) : Option State :=
  match s.holder with
  | .cleaning _ todo kept none =>
    if todo = ∅ then
      let written := c.metadataStore.write s.objects metadataStorePath (.catalog kept) r
      some { s with objects := written.1, holder := .idle }
    else none
  | _ => none

end Cleanup

def step (c : Config) (s : State) : Event → Option State
  | .syncStart w src sub read mtime => syncStart c s w src sub read mtime
  | .syncCopy w read crc32c r => syncCopy s w read crc32c r
  | .syncValidate w srcHash attrs => syncValidate s w srcHash attrs
  | .syncRecord w mtime r => syncRecord c s w mtime r
  | .updateStart rows reads => updateStart c s rows reads
  | .updateRow read => updateRow c s read
  | .updateWrite r => updateWrite c s r
  | .cleanStart now read => cleanStart c s now read
  | .cleanVisit key r => cleanVisit s key r
  | .cleanRecord r => cleanRecord c s r
  | .cleanWrite r => cleanWrite c s r
  -- a new process has the objects, and nothing else, of the old one
  | .restart => some ⟨s.objects, fun _ => .idle, .idle⟩

end ElCarro.Pitr
