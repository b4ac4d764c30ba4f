import Mathlib.Data.Finset.Sort
import Mathlib.Data.String.Basic
import ElCarro.Lro.Owner

/-! # Requests to the operation server

The calls of the daemon and the requests of its clients, taken apart where another
goroutine can come between: `addAndStartJob` adds the job under the lock of the server and
starts it after the lock has been given back, and a handler that has found a job object
works on it without the lock. `ListOperations` holds the lock until its page is complete.
-/

namespace ElCarro.Lro

open GoTime

/-- The handlers that fetch one job object and then work on it. -/
inductive Handler where
  | getOperation
  | cancelOperation
  | waitOperation
  deriving DecidableEq, Repr

/-- A handler that has found the job object of its operation. -/
structure Request where
  handler : Handler
  name : String
  h : Nat
  deriving DecidableEq, Repr

/-- The server together with the calls that are under way. -/
structure Service where
  server : Server
  /-- The jobs of `addAndStartJob` calls that have been added and not yet started. -/
  starting : List (String × Nat)
  requests : List Request
  /-- What a `ListOperations` call has still to visit while it holds the lock. -/
  listing : Option (List String)
  deriving DecidableEq

/-- One atomic step of a call, of a request or of a goroutine of the server. -/
inductive Call where
  | addJob (id name : String) (now : Time)
  | startJob (id : String) (h : Nat)
  | find (handler : Handler) (name : String)
  | answer (r : Request)
  | invalidTimeout (r : Request)
  | timeOut (r : Request)
  | listOperations (pageSize : Int) (pageToken : String)
  | listOperation
  | listed
  | server (e : Event)
  deriving DecidableEq, Repr

/-- What a handler makes of its job object; `WaitOperation` waits until the job is done. -/
def Handler.serve (handler : Handler) (j : Job) : Option Job :=
  match handler with
  | .getOperation => j.isDone.map fun _ => j
  | .cancelOperation => j.cancel
  | .waitOperation => if j.isDone = some true then some j else none

/-- The two moments of a job's life: its task is set, and its call is over. -/
inductive Turn where
  | starts
  | ends (o : Outcome)
  deriving DecidableEq, Repr

/-- What an event is for the job at the handle. -/
def Event.turn (h : Nat) : Event → Option Turn
  | .start k => if k = h then some .starts else none
  | .finish k o => if k = h then some (.ends o) else none
  | _ => none

def Call.turn (h : Nat) : Call → Option Turn
  | .startJob _ k => (Event.start k).turn h
  | .server e => e.turn h
  | _ => none

/-- What can come of a job in one step. -/
inductive Job.Moves : Option Turn → Job → Job → Prop where
  | same (j : Job) : Moves none j j
  | cancelled {j : Job} {b : Bool} (ht : j.task = some (.running b)) :
      Moves none j { j with task := some (.running true) }
  | started {j : Job} (ht : j.task = none) : Moves (some .starts) j j.start
  | ended {j : Job} {b : Bool} (o : Outcome) (ht : j.task = some (.running b)) :
      Moves (some (.ends o)) j (j.finish o)

/-- A job keeps its task. -/
theorem Job.Moves.task_ne_none {turn : Option Turn} {j j' : Job} (h : Job.Moves turn j j')
    (ht : j.task ≠ none) : j'.task ≠ none := by
  cases h with
  | same => exact ht
  | cancelled => simp
  | started => simp [Job.start]
  | ended => simp

theorem Job.Moves.eq_start {j j' : Job} (h : Job.Moves (some .starts) j j') : j' = j.start := by
  cases h
  rfl

theorem Handler.serve_moves {handler : Handler} {j j' : Job} (h : handler.serve j = some j') :
    Job.Moves none j j' := by
  cases handler with
  | getOperation =>
    obtain ⟨_, -, rfl⟩ := Option.map_eq_some_iff.mp h
    exact .same j
  | cancelOperation =>
    simp only [serve, Job.cancel] at h
    split at h
    · cases h
    · next b ht =>
      obtain rfl := Option.some.inj h
      exact .cancelled ht
    · obtain rfl := Option.some.inj h
      exact .same j
  | waitOperation =>
    simp only [serve] at h
    split at h
    · obtain rfl := Option.some.inj h
      exact .same j
    · cases h

namespace Server

variable {s t : Server} {e : Event} {h : Nat} {j : TtlJob}

/-- Only a start and an end change a job that is there. -/
theorem job_kept_of_step (he : s.step e = some t) (hstart : ∀ k, e ≠ .start k)
    (hfinish : ∀ k o, e ≠ .finish k o) (hj : s.heap[h]? = some j) :
    ∃ j', t.heap[h]? = some j' ∧ j'.job = j.job := by
  cases effect_of_step he with
  | added _ hh _ =>
    rw [hh]
    exact ⟨j, getElem?_concat_eq_some.mpr (.inl hj), rfl⟩
  | started => exact absurd rfl (hstart _)
  | finished => exact absurd rfl (hfinish _ _)
  | @touched _ k f hf hh _ =>
    rw [hh, List.getElem?_modify, hj]
    refine ⟨_, rfl, ?_⟩
    by_cases hk : k = h
    · subst hk
      simpa using hf j hj
    · simp [hk]
  | removed hh _ => exact ⟨j, hh ▸ hj, rfl⟩
  | none hh _ => exact ⟨j, hh ▸ hj, rfl⟩

theorem moves_of_step (he : s.step e = some t) (hj : s.heap[h]? = some j) :
    ∃ j', t.heap[h]? = some j' ∧ Job.Moves (e.turn h) j.job j'.job := by
  cases e with
  | start k =>
    simp only [step] at he
    split at he
    · next j₀ hj₀ =>
      split at he
      · next ht =>
        obtain rfl := Option.some.inj he
        refine ⟨if k = h then { j with job := j.job.start } else j, by simp [heap_update, hj], ?_⟩
        by_cases hk : k = h
        · subst hk
          obtain rfl : j₀ = j := Option.some.inj (hj₀.symm.trans hj)
          simpa only [Event.turn, if_true] using Job.Moves.started ht
        · simpa only [Event.turn, if_neg hk] using Job.Moves.same j.job
      · cases he
    · cases he
  | finish k o =>
    simp only [step] at he
    split at he
    · next j₀ hj₀ =>
      split at he
      · next b ht =>
        obtain rfl := Option.some.inj he
        refine ⟨if k = h then { j with job := j.job.finish o } else j,
          by simp [heap_update, hj], ?_⟩
        by_cases hk : k = h
        · subst hk
          obtain rfl : j₀ = j := Option.some.inj (hj₀.symm.trans hj)
          simpa only [Event.turn, if_true] using Job.Moves.ended o ht
        · simpa only [Event.turn, if_neg hk] using Job.Moves.same j.job
      · cases he
    · cases he
  | _ =>
    obtain ⟨j', hj', hjob⟩ := job_kept_of_step he (by simp) (by simp) hj
    exact ⟨j', hj', hjob ▸ .same j.job⟩

end Server

namespace Service

def new : Service := ⟨.NewServer, [], [], none⟩

/-- The lock of the server is taken. -/
def locked (c : Service) : Bool := c.server.cleanup.isSome || c.listing.isSome

/-- `sortedMapKeys`. -/
def sortedMapKeys (s : Server) : List String := s.jobs.keys.sort (· ≤ ·)

def defaultPageSize : Int := 10

/-- The operations that `ListOperations` puts on a page. -/
def page (s : Server) (pageSize : Int) (pageToken : String) : List String :=
  let pageSize := if pageSize = 0 then defaultPageSize else pageSize
  ((sortedMapKeys s).filter fun id => pageToken = "" ∨ pageToken ≤ id).take pageSize.toNat

/-- The events of the server that wait for its lock. -/
def needsLock : Event → Bool
  | .findDeleted _ | .lockExpired _ _ _ => true
  | _ => false

/--
Steps of the service. Jobs are added and started by `addJob` and `startJob`; the duplicate of
an ID in the map ends its call at once. A nil dereference has no successor.
-/
def step (c : Service) : Call → Option Service
  | .addJob id name now =>
    if c.locked then none
    else match c.server.addJob id (Job.new id name) now with
      | .error _ => some c
      | .ok (h, server) => some { c with server := server, starting := (id, h) :: c.starting }
  | .startJob id h =>
    if (id, h) ∈ c.starting then
      (c.server.step (.start h)).map fun server =>
        { c with server := server, starting := c.starting.erase (id, h) }
    else none
  | .find handler name =>
    if c.locked then none
    else match c.server.validateAndGetOperation name with
      | .error _ => some c
      | .ok h => some { c with requests := ⟨handler, name, h⟩ :: c.requests }
  | .answer r =>
    if r ∈ c.requests then do
      let j ← c.server.heap[r.h]?
      let job ← r.handler.serve j.job
      some { c with
        server := c.server.update r.h fun j => { j with job := job }
        requests := c.requests.erase r }
    else none
  | .invalidTimeout r =>
    if r ∈ c.requests ∧ r.handler = .waitOperation then
      some { c with requests := c.requests.erase r }
    else none
  | .timeOut r =>
    if r ∈ c.requests ∧ r.handler = .waitOperation then do
      let j ← c.server.heap[r.h]?
      let _ ← j.job.isDone
      some { c with requests := c.requests.erase r }
    else none
  | .listOperations pageSize pageToken =>
    if c.locked then none
    else some { c with listing := some (page c.server pageSize pageToken) }
  | .listOperation =>
    match c.listing with
    | some (id :: rest) => do
      let h ← c.server.jobs.lookup id
      let j ← c.server.heap[h]?
      let _ ← getOperationData id j.job
      some { c with listing := some rest }
    | _ => none
  | .listed => if c.listing = some [] then some { c with listing := none } else none
  | .server (.addJob _ _ _) => none
  | .server (.start _) => none
  | .server e =>
    if needsLock e && c.listing.isSome then none
    else (c.server.step e).map fun server => { c with server := server }

/-- The job objects that a step finds in the map. -/
def found (c : Service) : Call → Option Nat
  | .find _ name => (c.server.validateAndGetOperation name).toOption
  | .listOperation =>
    match c.listing with
    | some (id :: _) => c.server.jobs.lookup id
    | _ => none
  | .server (.checkDelete id) => c.server.jobs.lookup id
  | _ => none

/-- The job that `addAndStartJob` returns, with no error, when the step ends the call. -/
def returned (c : Service) : Call → Option Job
  | .addJob id name now =>
    match c.server.addJob id (Job.new id name) now with
    | .error _ => some (Job.new id name)
    | .ok _ => none
  | .startJob _ h => (c.server.heap[h]?).map fun j => j.job.start
  | _ => none

/-- The operation that a step reports to a client, with the job object it was read from. -/
def report (c : Service) : Call → Option (Nat × Operation)
  | .answer r =>
    if r.handler = .cancelOperation then none
    else do
      let j ← c.server.heap[r.h]?
      let op ← getOperationData r.name j.job
      some (r.h, op)
  | .listOperation =>
    match c.listing with
    | some (id :: _) => do
      let h ← c.server.jobs.lookup id
      let j ← c.server.heap[h]?
      let op ← getOperationData id j.job
      some (h, op)
    | _ => none
  | _ => none

/-- Everything a step can do to the server and to the calls under way. -/
inductive Effect (c c' : Service) : Call → Prop where
  | added {id name : String} {now : Time} (hid : id ∉ c.server.jobs)
      (hs : c.server.step (.addJob id name now) = some c'.server)
      (hh : c'.server.heap = c.server.heap ++ [⟨Job.new id name, now, 0, 0⟩])
      (hj : c'.server.jobs = c.server.jobs.insert id c.server.heap.length)
      (hst : c'.starting = (id, c.server.heap.length) :: c.starting)
      (hreq : c'.requests = c.requests) : Effect c c' (.addJob id name now)
  | started {id : String} {h : Nat} (hmem : (id, h) ∈ c.starting)
      (hs : c.server.step (.start h) = some c'.server)
      (hst : c'.starting = c.starting.erase (id, h)) (hreq : c'.requests = c.requests) :
      Effect c c' (.startJob id h)
  | found {handler : Handler} {name : String} {h : Nat}
      (hl : c.server.jobs.lookup name = some h) (hs : c'.server = c.server)
      (hst : c'.starting = c.starting)
      (hreq : c'.requests = ⟨handler, name, h⟩ :: c.requests) : Effect c c' (.find handler name)
  | answered {r : Request} {j : TtlJob} {job : Job} (hj : c.server.heap[r.h]? = some j)
      (hjob : r.handler.serve j.job = some job)
      (hs : c'.server = c.server.update r.h fun j => { j with job := job })
      (hst : c'.starting = c.starting) (hreq : c'.requests ⊆ c.requests) :
      Effect c c' (.answer r)
  /-- A step of a job's goroutine, of `DeleteOperation` or of the cleanup. -/
  | ran {e : Event} (hadd : ∀ id name now, e ≠ .addJob id name now) (hstart : ∀ h, e ≠ .start h)
      (hs : c.server.step e = some c'.server) (hst : c'.starting = c.starting)
      (hreq : c'.requests = c.requests) : Effect c c' (.server e)
  | none {e : Call} (he : ∀ h, e.turn h = none) (hs : c'.server = c.server)
      (hst : c'.starting = c.starting) (hreq : c'.requests ⊆ c.requests) : Effect c c' e

variable {c c' : Service} {e : Call}

theorem lookup_of_validateAndGetOperation {s : Server} {name : String} {h : Nat}
    (hv : s.validateAndGetOperation name = .ok h) : s.jobs.lookup name = some h := by
  unfold Server.validateAndGetOperation at hv
  split at hv
  · cases hv
  · split at hv
    · cases hv
    · next k hk =>
      obtain rfl : k = h := Except.ok.inj hv
      exact hk

/-- The goroutines of the server go on as they do without requests. -/
theorem ran_of_step {ev : Event} (hadd : ∀ id name now, ev ≠ .addJob id name now)
    (hstart : ∀ h, ev ≠ .start h) (h : c.step (.server ev) = some c') :
    Effect c c' (.server ev) := by
  have hmap : (c.server.step ev).map (fun server => { c with server := server }) = some c' := by
    cases ev with
    | addJob id name now => exact absurd rfl (hadd id name now)
    | start k => exact absurd rfl (hstart k)
    | _ =>
      simp only [step] at h
      split at h
      · cases h
      · exact h
  obtain ⟨server, hs, rfl⟩ := Option.map_eq_some_iff.mp hmap
  exact .ran hadd hstart hs rfl rfl

theorem effect_of_step (h : c.step e = some c') : Effect c c' e := by
  cases e with
  | addJob id name now =>
    simp only [step] at h
    split at h
    · cases h
    · next hlock =>
      have hfree : c.server.cleanup.isSome = false := by
        simp only [locked, Bool.or_eq_true, not_or] at hlock
        simpa using hlock.1
      by_cases hid : id ∈ c.server.jobs
      · simp only [Server.addJob, if_pos hid] at h
        obtain rfl := Option.some.inj h
        exact .none (by simp [Call.turn]) rfl rfl (List.Subset.refl _)
      · simp only [Server.addJob, if_neg hid] at h
        obtain rfl := Option.some.inj h
        exact .added hid (by simp [Server.step, hfree, Server.addJob, hid]) rfl rfl rfl rfl
  | startJob id k =>
    simp only [step] at h
    split at h
    · next hmem =>
      obtain ⟨server, hs, rfl⟩ := Option.map_eq_some_iff.mp h
      exact .started hmem hs rfl rfl
    · cases h
  | find handler name =>
    simp only [step] at h
    split at h
    · cases h
    · split at h
      · obtain rfl := Option.some.inj h
        exact .none (by simp [Call.turn]) rfl rfl (List.Subset.refl _)
      · next k hv =>
        obtain rfl := Option.some.inj h
        exact .found (lookup_of_validateAndGetOperation hv) rfl rfl rfl
  | answer r =>
    simp only [step] at h
    split at h
    · obtain ⟨j, hj, h⟩ := Option.bind_eq_some_iff.mp h
      obtain ⟨job, hjob, h⟩ := Option.bind_eq_some_iff.mp h
      obtain rfl := Option.some.inj h
      exact .answered hj hjob rfl rfl List.erase_subset
    · cases h
  | invalidTimeout r =>
    simp only [step] at h
    split at h
    · obtain rfl := Option.some.inj h
      exact .none (by simp [Call.turn]) rfl rfl List.erase_subset
    · cases h
  | timeOut r =>
    simp only [step] at h
    split at h
    · obtain ⟨j, -, h⟩ := Option.bind_eq_some_iff.mp h
      obtain ⟨done, -, h⟩ := Option.bind_eq_some_iff.mp h
      obtain rfl := Option.some.inj h
      exact .none (by simp [Call.turn]) rfl rfl List.erase_subset
    · cases h
  | listOperations pageSize pageToken =>
    simp only [step] at h
    split at h
    · cases h
    · obtain rfl := Option.some.inj h
      exact .none (by simp [Call.turn]) rfl rfl (List.Subset.refl _)
  | listOperation =>
    simp only [step] at h
    split at h
    · obtain ⟨k, -, h⟩ := Option.bind_eq_some_iff.mp h
      obtain ⟨j, -, h⟩ := Option.bind_eq_some_iff.mp h
      obtain ⟨op, -, h⟩ := Option.bind_eq_some_iff.mp h
      obtain rfl := Option.some.inj h
      exact .none (by simp [Call.turn]) rfl rfl (List.Subset.refl _)
    · cases h
  | listed =>
    simp only [step] at h
    split at h
    · obtain rfl := Option.some.inj h
      exact .none (by simp [Call.turn]) rfl rfl (List.Subset.refl _)
    · cases h
  | server ev =>
    cases ev with
    | addJob _ _ _ => cases h
    | start _ => cases h
    | _ => exact ran_of_step (by simp) (by simp) h

theorem moves_of_step {h : Nat} {j : TtlJob} (he : c.step e = some c')
    (hj : c.server.heap[h]? = some j) :
    ∃ j', c'.server.heap[h]? = some j' ∧ Job.Moves (e.turn h) j.job j'.job := by
  cases effect_of_step he with
  | added _ hs => exact Server.moves_of_step hs hj
  | started _ hs => exact Server.moves_of_step hs hj
  | ran _ _ hs => exact Server.moves_of_step hs hj
  | found _ hs => exact ⟨j, hs ▸ hj, .same j.job⟩
  | @answered r j₀ job hj₀ hjob hs =>
    rw [hs, Server.heap_update, hj]
    refine ⟨_, rfl, ?_⟩
    dsimp only
    split
    · next hk =>
      subst hk
      obtain rfl : j₀ = j := Option.some.inj (hj₀.symm.trans hj)
      exact Handler.serve_moves hjob
    · exact .same j.job
  | none hturn hs =>
    rw [hturn h]
    exact ⟨j, hs ▸ hj, .same j.job⟩

/-- Steps that add no job leave the entries of the map, or drop them. -/
theorem lookup_of_step {id : String} {h : Nat} (he : c.step e = some c')
    (hadd : ∀ id name now, e ≠ .addJob id name now) (hl : c'.server.jobs.lookup id = some h) :
    c.server.jobs.lookup id = some h := by
  cases effect_of_step he with
  | added => exact absurd rfl (hadd _ _ _)
  | started _ hs => exact Server.lookup_of_step hs (by simp) hl
  | found _ hs => exact hs ▸ hl
  | answered _ _ hs => exact (congrArg (fun s => s.jobs.lookup id) hs) ▸ hl
  | ran hev _ hs => exact Server.lookup_of_step hs (hev id) hl
  | none _ hs => exact hs ▸ hl

end Service

end ElCarro.Lro
