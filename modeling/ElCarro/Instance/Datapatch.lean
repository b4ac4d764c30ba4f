import ElCarro.Lro.Effects

/-! # Database patching over a long running operation

The operator starts the patching of the database with one call to the daemon and
then polls the operation. Both sides know the operation only by its ID, which is
the same for all attempts on an instance. Attempts come from patching and from
restores of a Backup that was taken with another image.
-/

namespace ElCarro.Instance

open GoTime Lro

def lroPatchingOperationID (uid : String) : String := "DatabasePatch_" ++ uid

namespace Datapatch

inductive Kind where
  | patching
  | postRestore
  deriving DecidableEq, Repr

/-- Where the instance stands, as recorded in its Ready condition. -/
inductive Phase where
  | outside
  /-- `StatefulSetPatchingComplete` or `PostRestoreBootstrapComplete`. -/
  | ready (kind : Kind)
  /-- `DatabasePatchingInProgress` or `PostRestoreDatabasePatchingInProgress`. -/
  | inProgress (kind : Kind)
  /-- The same condition, inside a poll that has seen the operation done. -/
  | polled (kind : Kind) (op : Operation)
  deriving DecidableEq, Repr

/-- What becomes of a call to the daemon. -/
inductive Rpc where
  | ok
  | failed
  /-- The daemon served the call, but the operator sees an error. -/
  | lost
  deriving DecidableEq, Repr

structure System where
  server : Server
  phase : Phase
  /-- Number of the current attempt, or of the last one. -/
  attempt : Nat
  /-- The attempt whose call added a job object. -/
  owner : Nat → Option Nat
  /-- Attempts of which an execution has finished successfully. -/
  executed : List Nat

def System.new : System := ⟨.NewServer, .outside, 0, fun _ => none, []⟩

inductive Event where
  /-- The state machines arrive at the point where the database has to be patched. -/
  | enter (kind : Kind)
  /-- They leave again by a time limit, a failed check or an edit of the user. -/
  | leave
  | startDatabasePatching (now : Time) (r : Rpc) (persisted : Bool)
  | getOperation (reached : Bool)
  | deleteOperation (r : Rpc) (persisted : Bool)
  | operatorRestart
  | daemon (e : Lro.Event)
  | daemonRestart

section Operator

variable (id : String)

/-- `ApplyDataPatchAsync`: an operation that exists already is answered like a new one. -/
def applyDataPatch (s : System) (now : Time) : Option System :=
  (s.server.step (.addJob id "ApplyDataPatch" now)).map fun server =>
    { s with
      server
      owner :=
        if id ∈ s.server.jobs then s.owner
        else Function.update s.owner s.server.heap.length (some s.attempt) }

/-- The condition that the caller of `startDatabasePatching` goes on to write. -/
def started (kind : Kind) : Rpc → Phase
  | .ok => .inProgress kind
  | .failed => .outside
  | .lost => .outside

def startDatabasePatching (s : System) (now : Time) (r : Rpc) (persisted : Bool) :
    Option System :=
  match s.phase with
  | .ready kind =>
    let phase := if persisted then started kind r else .ready kind
    if r = .failed then some { s with phase }
    else (applyDataPatch id s now).map fun s => { s with phase }
  | _ => none

/-- The first call of `isDatabasePatchingDone`; any error counts as not done yet. -/
def getOperation (s : System) (reached : Bool) : Option System :=
  match s.phase with
  | .inProgress kind =>
    if reached then
      match s.server.getOperation id with
      | none => none
      | some (.error _) => some s
      | some (.ok op) => if op.done then some { s with phase := .polled kind op } else some s
    else some s
  | _ => none

/-- The rest of `isDatabasePatchingDone`, once the operation is done. -/
def isDatabasePatchingDone (s : System) (op : Operation) (r : Rpc) : Except String Bool :=
  match r, s.server.validateAndGetOperation id with
  | .ok, .ok _ =>
    match op.getError with
    | some (_, message) => .error ("config_agent.ApplyDataPatch() failed: " ++ message)
    | none => .ok true
  | _, _ => .error "DeleteLROOperation returned an error"

/-- Whatever the answer, the operator leaves the condition if it can write the next one. -/
def deleteOperation (s : System) (r : Rpc) (persisted : Bool) : Option System :=
  match s.phase with
  | .polled kind _ =>
    let phase := if persisted then .outside else .inProgress kind
    if r = .failed then some { s with phase }
    else (s.server.step (.findDeleted id)).map fun server => { s with server, phase }
  | _ => none

/-- The step ends a poll that reports done without an error. -/
def reports (s : System) : Event → Bool
  | .deleteOperation r _ =>
    match s.phase with
    | .polled _ op => isDatabasePatchingDone id s op r = .ok true
    | _ => false
  | _ => false

end Operator

section Daemon

/-- The operator is the only one that adds jobs under its ID. -/
def foreign (id : String) : Lro.Event → Bool
  | .addJob id' _ _ => id' ≠ id
  | _ => true

/-- Bookkeeping of a step of the daemon: other jobs have no attempt, and a job that
finishes without an error is an execution of its attempt. -/
def note (s : System) (e : Lro.Event) (server : Server) : System :=
  match e with
  | .addJob id _ _ =>
    { s with
      server
      owner := if id ∈ s.server.jobs then s.owner
        else Function.update s.owner s.server.heap.length none }
  | .finish h _ =>
    match s.owner h, server.heap[h]? with
    | some a, some j =>
      { s with server, executed := if j.job.err = none then a :: s.executed else s.executed }
    | _, _ => { s with server }
  | _ => { s with server }

end Daemon

def step (id : String) (s : System) : Event → Option System
  | .enter kind =>
    match s.phase with
    | .outside => some { s with phase := .ready kind, attempt := s.attempt + 1 }
    | _ => none
  | .leave => some { s with phase := .outside }
  | .startDatabasePatching now r persisted => startDatabasePatching id s now r persisted
  | .getOperation reached => getOperation id s reached
  | .deleteOperation r persisted => deleteOperation id s r persisted
  | .operatorRestart =>
    match s.phase with
    | .polled kind _ => some { s with phase := .inProgress kind }
    | _ => some s
  | .daemon e => if foreign id e then (s.server.step e).map (note s e) else none
  | .daemonRestart => some { s with server := .NewServer, owner := fun _ => none }

end Datapatch

end ElCarro.Instance
