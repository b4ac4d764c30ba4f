import Mathlib.Data.Option.Basic

/-! # Long running jobs

A job wraps one call of the daemon. Its task is absent until the job has been
started and is closed once the wrapped call has returned or panicked; the
response and the error are written before that. Reading the state of a job that
has no task dereferences a nil pointer, which is the outcome `none` below.
-/

namespace ElCarro.Lro

/-- The gRPC status codes. -/
inductive Code where
  | ok | canceled | unknown | invalidArgument | deadlineExceeded | notFound | alreadyExists
  | permissionDenied | resourceExhausted | failedPrecondition | aborted | outOfRange
  | unimplemented | internal | unavailable | dataLoss | unauthenticated
  deriving DecidableEq, Repr

/-- A Go error, with or without a gRPC status inside. -/
inductive Err where
  | status (code : Code) (message : String)
  | plain (message : String)
  deriving DecidableEq, Repr

/-- A response message: packed already, packed by `MarshalFrom`, or refused by it. -/
inductive Message where
  | any (value : String)
  | proto (packed : String)
  | unmarshalable (reason : String)
  deriving DecidableEq, Repr

/-- How the wrapped call ends; the reason of a panic is nil in `panic(nil)`. -/
inductive Outcome where
  | returned (resp : Option Message) (err : Option Err)
  | panicked (reason : Option String)
  deriving DecidableEq, Repr

inductive Task where
  | running (cancelled : Bool)
  | finished
  deriving DecidableEq, Repr

structure Job where
  id : String
  name : String
  resp : Option String
  err : Option Err
  task : Option Task
  deriving DecidableEq, Repr

namespace Job

/-- The job that `CreateAndRunLROJobWithID` allocates. -/
def new (id name : String) : Job := ⟨id, name, none, none, none⟩

/-- `start`: the task is set and the wrapped call begins. -/
def start (j : Job) : Job := { j with task := some (.running false) }

/-- What the detached function leaves behind when the wrapped call is over. -/
def finish (o : Outcome) (j : Job) : Job :=
  match o with
  -- `recover` returns nil, as it does when there was no panic
  | .panicked none => { j with task := some .finished }
  | .panicked (some reason) =>
    { j with
      err := some (.plain ("caught panic in agent execution. Panic Message: " ++ reason))
      task := some .finished }
  | .returned none err => { j with resp := none, err := err, task := some .finished }
  | .returned (some (.any value)) err =>
    { j with resp := some value, err := err, task := some .finished }
  | .returned (some (.proto packed)) err =>
    { j with resp := some packed, err := err, task := some .finished }
  | .returned (some (.unmarshalable reason)) _ =>
    -- the empty `Any` stays in the response, the marshalling error replaces the call's own
    { j with
      resp := some ""
      err := some (.status .internal ("Failed to marshal response to any: " ++ reason))
      task := some .finished }

/-- `IsDone`, undefined while the task is nil. -/
def isDone (j : Job) : Option Bool := j.task.map (· == .finished)

def cancel (j : Job) : Option Job :=
  match j.task with
  | none => none
  | some (.running _) => some { j with task := some (.running true) }
  | some .finished => some j

/-- `Delete` only reports whether the job could be deleted. -/
def delete (j : Job) : Option (Except Err Unit) :=
  j.isDone.map fun done =>
    if done then .ok ()
    else .error (.status .aborted
      ("Can't delete job with ID \"" ++ j.id ++ "\" while it's still running"))

def status (j : Job) : Option (Bool × Option String × Option Err) :=
  j.isDone.map fun done =>
    if !done then (false, none, none)
    else match j.err with
      | some e => (true, none, some e)
      | none => (true, j.resp, none)

@[simp] theorem finish_task (o : Outcome) (j : Job) : (j.finish o).task = some .finished := by
  unfold finish
  split <;> rfl

@[simp] theorem finish_id (o : Outcome) (j : Job) : (j.finish o).id = j.id := by
  unfold finish
  split <;> rfl

theorem isDone_eq_some_true {j : Job} : j.isDone = some true ↔ j.task = some .finished := by
  simp [isDone]

end Job

/-- The result part of an `Operation`. -/
inductive OpResult where
  | error (code : Code) (message : String)
  | response (value : String)
  deriving DecidableEq, Repr

structure Operation where
  name : String
  done : Bool
  result : Option OpResult
  deriving DecidableEq, Repr

/-- `BuildOperation`: an error wins over a response. -/
def buildOperation (id : String) (done : Bool) (result : Option String) (e : Option Err) :
    Operation :=
  match result, e with
  | none, none => ⟨id, done, none⟩
  | _, some (.status code message) => ⟨id, done, some (.error code message)⟩
  | _, some (.plain message) => ⟨id, done, some (.error .unknown message)⟩
  | some value, none => ⟨id, done, some (.response value)⟩

def getOperationData (id : String) (j : Job) : Option Operation :=
  j.status.map fun (done, result, e) => buildOperation id done result e

/-- `GetError` of an operation. -/
def Operation.getError (op : Operation) : Option (Code × String) :=
  match op.result with
  | some (.error code message) => some (code, message)
  | _ => none

/-- The wrapped call is over and no error has been recorded for it. -/
def Job.Succeeded (j : Job) : Prop := j.task = some .finished ∧ j.err = none

theorem getOperationData_done {id : String} {j : Job} {op : Operation}
    (h : getOperationData id j = some op) (hd : op.done = true) : j.task = some .finished := by
  unfold getOperationData Job.status Job.isDone at h
  rcases ht : j.task with _ | ⟨c⟩ | _
  · simp [ht] at h
  · simp only [ht, Option.map_some, Option.some.injEq] at h
    subst h
    simp [buildOperation] at hd
  · rfl

/-- An operation that is done and carries no error belongs to a job that succeeded. -/
theorem getOperationData_succeeded {id : String} {j : Job} {op : Operation}
    (h : getOperationData id j = some op) (hd : op.done = true) (he : op.getError = none) :
    j.Succeeded := by
  have ht := getOperationData_done h hd
  refine ⟨ht, ?_⟩
  unfold getOperationData Job.status Job.isDone at h
  rcases hj : j.err with _ | ⟨code, m⟩ | m
  · rfl
  all_goals
    simp only [ht, hj, Option.map_some, Option.some.injEq] at h
    subst h
    simp [buildOperation, Operation.getError] at he

/-- Only the error of a job shows as the error of its operation. -/
theorem getOperationData_getError {id : String} {j : Job} {op : Operation}
    (h : getOperationData id j = some op) (he : j.err = none) : op.getError = none := by
  unfold getOperationData Job.status Job.isDone at h
  rcases ht : j.task with _ | ⟨c⟩ | _
  · simp [ht] at h
  · simp only [ht, Option.map_some, Option.some.injEq] at h
    subst h
    rfl
  · simp only [ht, he, Option.map_some, Option.some.injEq] at h
    subst h
    cases j.resp <;> rfl

end ElCarro.Lro
