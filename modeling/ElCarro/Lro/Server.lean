import Mathlib.Data.Finmap
import ElCarro.Lib.GoTime
import ElCarro.Lib.Runs
import ElCarro.Lro.Job

/-! # The operation server

The server keeps a map from operation IDs to job objects. Request handlers, the
goroutines of the jobs and the cleanup goroutine interleave: a step below is one
critical section or one access to a job object, and a handler may hold a job
object after the map has dropped it. Job objects live in a heap and are named by
their index there.
-/

namespace ElCarro.Lro

open GoTime

structure TtlJob where
  job : Job
  startTime : Time
  completeTime : Time
  deleteTime : Time
  deriving DecidableEq, Repr

def ttlAfterDelete : Duration := 10 * minute
def ttlAfterComplete : Duration := 12 * hour

/-- `isDeletedJobExpired`. -/
def isDeletedJobExpired (j : TtlJob) (now : Time) (ttl : Duration) : Bool :=
  decide (¬ IsZero j.deleteTime) && decide (ttl < sub now j.deleteTime)

/-- The completion check of `DeleteExpiredJobs`: note the first sight of a finished job. -/
def noteCompletion (j : TtlJob) (now : Time) : Option TtlJob :=
  if IsZero j.completeTime then
    j.job.isDone.map fun done => if done then { j with completeTime := now } else j
  else some j

/-- Whether a job has been complete for longer than the retention time. -/
def isCompletedJobExpired (j : TtlJob) (now : Time) (ttl : Duration) : Bool :=
  decide (¬ IsZero j.completeTime) && decide (ttl < sub now j.completeTime)

/-- Where the loop body of `DeleteExpiredJobs` stands. -/
inductive Visit where
  | next
  | checkedDelete (id : String) (h : Nat) (shouldDelete : Bool)
  | checkedComplete (id : String) (h : Nat) (shouldDelete : Bool)
  deriving DecidableEq, Repr

/-- A cleanup pass that holds the lock of the server. -/
structure Cleanup where
  now : Time
  ttlAfterDelete : Duration
  ttlAfterComplete : Duration
  todo : Finset String
  visit : Visit
  deriving DecidableEq

structure Server where
  heap : List TtlJob
  jobs : Finmap fun _ : String => Nat
  /-- Job objects that a `DeleteOperation` handler has fetched and not yet marked. -/
  marking : List Nat
  cleanup : Option Cleanup
  deriving DecidableEq

namespace Server

def NewServer : Server := ⟨[], ∅, [], none⟩

def update (s : Server) (h : Nat) (f : TtlJob → TtlJob) : Server :=
  { s with heap := s.heap.modify h f }

/-- `AddJob`, with the handle of the job object when it was added. -/
def addJob (s : Server) (id : String) (job : Job) (now : Time) : Except Err (Nat × Server) :=
  if id ∈ s.jobs then
    .error (.status .alreadyExists ("LRO with ID \"" ++ id ++ "\" already exists"))
  else
    .ok (s.heap.length,
      { s with
        heap := s.heap ++ [⟨job, now, 0, 0⟩]
        jobs := s.jobs.insert id s.heap.length })

def validateAndGetOperation (s : Server) (operationID : String) : Except Err Nat :=
  if operationID = "" then
    .error (.status .invalidArgument "bad request: empty operation ID")
  else match s.jobs.lookup operationID with
    | none => .error (.status .notFound ("LRO with ID \"" ++ operationID ++ "\" NOT found"))
    | some h => .ok h

/-- `GetOperation`; the outer `none` is the nil dereference on a job without a task. -/
def getOperation (s : Server) (name : String) : Option (Except Err Operation) :=
  match s.validateAndGetOperation name with
  | .error e => some (.error e)
  | .ok h =>
    match s.heap[h]? with
    | none => none
    | some j => (getOperationData name j.job).map .ok

end Server

/-- One atomic step of a request handler, of a job's goroutine or of the cleanup goroutine. -/
inductive Event where
  | addJob (id name : String) (now : Time)
  | start (h : Nat)
  | finish (h : Nat) (o : Outcome)
  | findDeleted (id : String)
  | markDeleted (h : Nat) (now : Time)
  | lockExpired (now : Time) (ttlAfterDelete ttlAfterComplete : Duration)
  | checkDelete (id : String)
  | checkComplete
  | removeExpired
  | unlockExpired
  deriving DecidableEq, Repr

namespace Server

/--
Steps of the server. `addJob`, `findDeleted` and `lockExpired` take the lock of the
server, so they wait while a cleanup pass holds it. A nil dereference takes the daemon
down and has no successor.
-/
def step (s : Server) : Event → Option Server
  | .addJob id name now =>
    if s.cleanup.isSome then none
    else match s.addJob id (Job.new id name) now with
      | .error _ => some s
      | .ok (_, s') => some s'
  | .start h =>
    match s.heap[h]? with
    | some j => if j.job.task = none then
        some (s.update h fun j => { j with job := j.job.start }) else none
    | none => none
  | .finish h o =>
    match s.heap[h]? with
    | some j => match j.job.task with
      | some (.running _) => some (s.update h fun j => { j with job := j.job.finish o })
      | _ => none
    | none => none
  | .findDeleted id =>
    if s.cleanup.isSome then none
    else match s.validateAndGetOperation id with
      | .error _ => some s
      | .ok h => some { s with marking := h :: s.marking }
  | .markDeleted h now =>
    if h ∈ s.marking then
      some { s.update h (fun j => { j with deleteTime := now }) with
        marking := s.marking.erase h }
    else none
  | .lockExpired now ttlD ttlC =>
    if s.cleanup.isSome then none
    else some { s with cleanup := some ⟨now, ttlD, ttlC, s.jobs.keys, .next⟩ }
  | .checkDelete id =>
    match s.cleanup with
    | some ⟨now, ttlD, ttlC, todo, .next⟩ =>
      if id ∈ todo then do
        let h ← s.jobs.lookup id
        let j ← s.heap[h]?
        some { s with cleanup := some ⟨now, ttlD, ttlC, todo.erase id,
          .checkedDelete id h (isDeletedJobExpired j now ttlD)⟩ }
      else none
    | _ => none
  | .checkComplete =>
    match s.cleanup with
    | some ⟨now, ttlD, ttlC, todo, .checkedDelete id h shouldDelete⟩ => do
      let j ← s.heap[h]?
      let j' ← noteCompletion j now
      some { s.update h (fun _ => j') with cleanup := some ⟨now, ttlD, ttlC, todo,
        .checkedComplete id h (shouldDelete || isCompletedJobExpired j' now ttlC)⟩ }
    | _ => none
  | .removeExpired =>
    match s.cleanup with
    | some ⟨now, ttlD, ttlC, todo, .checkedComplete id _ shouldDelete⟩ =>
      some { s with
        jobs := if shouldDelete then s.jobs.erase id else s.jobs
        cleanup := some ⟨now, ttlD, ttlC, todo, .next⟩ }
    | _ => none
  | .unlockExpired =>
    match s.cleanup with
    | some ⟨_, _, _, todo, .next⟩ => if todo = ∅ then some { s with cleanup := none } else none
    | _ => none

end Server

end ElCarro.Lro
