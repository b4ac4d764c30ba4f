import ElCarro.Lro.Requests

/-! # Reports of long running operations

The call of a job ends once, by returning or by a panic, and what it leaves in the job is
what every report of the operation carries from then on. The reports are read at any later
time, by any of the requests that read a job, also from a job object that the map has
dropped in the meantime.
-/

namespace ElCarro.Lro

open GoTime Runs

/-- An error as `BuildOperation` packs it. -/
def Err.result : Err → OpResult
  | .status code message => .error code message
  | .plain message => .error .unknown message

/--
What the reports carry of a call that is over: its error, the error of its panic or of a
response that cannot be packed, else its response, if there is one.
-/
def Outcome.result : Outcome → Option OpResult
  | .returned (some (.unmarshalable reason)) _ =>
    some (.error .internal ("Failed to marshal response to any: " ++ reason))
  | .returned _ (some e) => some e.result
  | .returned (some (.any value)) none => some (.response value)
  | .returned (some (.proto packed)) none => some (.response packed)
  | .returned none none => none
  | .panicked (some reason) =>
    some (.error .unknown ("caught panic in agent execution. Panic Message: " ++ reason))
  | .panicked none => none

/-- The call returned an error, or it panicked with a reason. -/
def Outcome.Failed : Outcome → Prop
  | .returned _ err => err.isSome
  | .panicked reason => reason.isSome

/-- A call that failed is never reported as a success. -/
theorem Outcome.Failed.result {o : Outcome} (h : o.Failed) :
    ∃ code message, o.result = some (.error code message) := by
  rcases o with ⟨resp, err⟩ | ⟨_ | reason⟩
  · obtain ⟨e, rfl⟩ := Option.isSome_iff_exists.mp h
    have he : ∃ code message, e.result = .error code message := by
      cases e <;> exact ⟨_, _, rfl⟩
    obtain ⟨code, message, he⟩ := he
    rcases resp with _ | ⟨_⟩ | ⟨_⟩ | ⟨_⟩
    · exact ⟨code, message, congrArg some he⟩
    · exact ⟨code, message, congrArg some he⟩
    · exact ⟨code, message, congrArg some he⟩
    · exact ⟨_, _, rfl⟩
  · cases h
  · exact ⟨_, _, rfl⟩

namespace Job

/-- How a job looks before and after the end of its call. -/
def Recorded (j : Job) : Option Outcome → Prop
  | none => j.resp = none ∧ j.err = none ∧ j.task ≠ some .finished
  | some o => j = (new j.id j.name).finish o

/-- The operation that is reported of a job. -/
def operation (j : Job) : Option Outcome → Operation
  | none => ⟨j.id, false, none⟩
  | some o => ⟨j.id, true, o.result⟩

/-- The end of a call overwrites everything but a response and an error that are not there. -/
theorem finish_eq (o : Outcome) {j : Job} (hresp : j.resp = none) (herr : j.err = none) :
    j.finish o = (new j.id j.name).finish o := by
  obtain ⟨id, name, resp, err, task⟩ := j
  obtain rfl : resp = none := hresp
  obtain rfl : err = none := herr
  unfold finish
  split <;> rfl

theorem finish_name (o : Outcome) (j : Job) : (j.finish o).name = j.name := by
  unfold finish
  split <;> rfl

theorem getOperationData_finish (id i name : String) (o : Outcome) :
    getOperationData id ((new i name).finish o) = some ⟨id, true, o.result⟩ := by
  rcases o with ⟨_ | ⟨_⟩ | ⟨_⟩ | ⟨_⟩, _ | ⟨_⟩ | ⟨_⟩⟩ | ⟨_ | _⟩ <;> rfl

/-- A report of a job shows the end of its call and nothing else. -/
theorem Recorded.report {j : Job} {o : Option Outcome} {op : Operation} (h : j.Recorded o)
    (hop : getOperationData j.id j = some op) : op = j.operation o := by
  cases o with
  | none =>
    unfold getOperationData status isDone at hop
    rcases ht : j.task with _ | ⟨b⟩ | _
    · simp [ht] at hop
    · simpa [ht, buildOperation, operation] using hop.symm
    · exact absurd ht h.2.2
  | some o =>
    rw [h, getOperationData_finish] at hop
    rw [operation]
    simpa [new] using (Option.some.inj hop).symm

end Job

/-- The outcome of the call of a job, when the turn is its end. -/
def Turn.outcome : Option Turn → Option Outcome
  | some (.ends o) => some o
  | _ => none

theorem Job.Moves.id_eq {turn : Option Turn} {j j' : Job} (h : Job.Moves turn j j') :
    j'.id = j.id := by
  cases h with
  | same => rfl
  | cancelled => rfl
  | started => rfl
  | ended o => exact finish_id o j

theorem Job.Recorded.moves {turn : Option Turn} {j j' : Job} {o : Option Outcome}
    (h : j.Recorded o) (hm : Job.Moves turn j j') : j'.Recorded (o.or (Turn.outcome turn)) := by
  cases o with
  | none =>
    cases hm with
    | same => exact h
    | cancelled => exact ⟨h.1, h.2.1, by simp⟩
    | started => exact ⟨h.1, h.2.1, by simp [start]⟩
    | ended o' =>
      simp only [Option.none_or, Turn.outcome, Recorded, finish_id, finish_name]
      exact finish_eq o' h.1 h.2.1
  | some o =>
    have ht : j.task = some .finished := by
      rw [h]
      exact finish_task o _
    cases hm with
    | same => exact h
    | cancelled hr => simp [ht] at hr
    | started hr => simp [ht] at hr
    | ended _ hr => simp [ht] at hr

/-- The outcome of the call of a job, when the step ends it. -/
def Call.ends (h : Nat) (e : Call) : Option Outcome := Turn.outcome (e.turn h)

/-- How the call of a job ended in a run, if it did. -/
def outcome (h : Nat) (es : List Call) : Option Outcome := es.findSome? (Call.ends h)

namespace Service

/-- The job objects and the reports to come agree with the calls that are over. -/
structure Settled (past : Nat → Option Outcome) (c : Service) : Prop where
  recorded : ∀ (h : Nat) (j : TtlJob), c.server.heap[h]? = some j → j.job.Recorded (past h)
  fresh : ∀ h, c.server.heap[h]? = none → past h = none
  mapped : ∀ id h, c.server.jobs.lookup id = some h →
    ∃ j, c.server.heap[h]? = some j ∧ j.job.id = id
  requested : ∀ r ∈ c.requests, ∃ j, c.server.heap[r.h]? = some j ∧ j.job.id = r.name

namespace Settled

variable {past : Nat → Option Outcome} {c c' : Service} {e : Call}

theorem new : Settled (fun _ => none) Service.new where
  recorded := by simp [Service.new, Server.NewServer]
  fresh := by simp
  mapped := by simp [Service.new, Server.NewServer]
  requested := by simp [Service.new]

/-- A job object that was not there before the step is a new one. -/
theorem new_of_step {h : Nat} {j : TtlJob} (he : c.step e = some c')
    (hnone : c.server.heap[h]? = none) (hj : c'.server.heap[h]? = some j) :
    ∃ id name now, e = .addJob id name now ∧ j.job = Job.new id name := by
  -- no other step of the server has a larger heap
  have hserver : ∀ {ev : Event}, (∀ id name now, ev ≠ .addJob id name now) →
      c.server.step ev = some c'.server → False := by
    intro ev hadd hs
    rcases Server.job_of_step hs hj with ⟨i, hi, -⟩ | ⟨id, name, now, hev, -⟩ | ⟨i, hi, -⟩
    · simp [hnone] at hi
    · exact hadd id name now hev
    · simp [hnone] at hi
  cases effect_of_step he with
  | added _ _ hh =>
    rw [hh] at hj
    rcases Server.getElem?_concat_eq_some.mp hj with hold | ⟨-, rfl⟩
    · simp [hnone] at hold
    · exact ⟨_, _, _, rfl, rfl⟩
  | started _ hs => exact (hserver (by simp) hs).elim
  | ran hadd _ hs => exact (hserver hadd hs).elim
  | found _ hs => simp [hs, hnone] at hj
  | answered _ _ hs => simp [hs, Server.heap_update, hnone] at hj
  | none _ hs => simp [hs, hnone] at hj

/-- Only a job that is there can end. -/
theorem ends_eq_none {h : Nat} (he : c.step e = some c') (hnone : c.server.heap[h]? = none) :
    e.ends h = none := by
  cases e with
  | startJob id k =>
    simp only [Call.ends, Call.turn, Event.turn]
    split <;> rfl
  | server ev =>
    cases ev with
    | start k =>
      simp only [Call.ends, Call.turn, Event.turn]
      split <;> rfl
    | finish k o =>
      have hk : k ≠ h := by
        rintro rfl
        simp [Service.step, Server.step, hnone] at he
      simp [Call.ends, Call.turn, Event.turn, hk, Turn.outcome]
    | _ => rfl
  | _ => rfl

/-- A job object stays in the heap under its ID. -/
theorem id_of_step {h : Nat} {id : String} (he : c.step e = some c')
    (hj : ∃ j, c.server.heap[h]? = some j ∧ j.job.id = id) :
    ∃ j, c'.server.heap[h]? = some j ∧ j.job.id = id := by
  obtain ⟨j, hj, hid⟩ := hj
  obtain ⟨j', hj', hm⟩ := moves_of_step he hj
  exact ⟨j', hj', hm.id_eq.trans hid⟩

theorem step (hc : Settled past c) (he : c.step e = some c') :
    Settled (fun h => (past h).or (e.ends h)) c' := by
  constructor
  · intro h j' hj'
    rcases hj : c.server.heap[h]? with _ | j
    · obtain ⟨id, name, now, rfl, hnew⟩ := new_of_step he hj hj'
      rw [hc.fresh h hj, ends_eq_none he hj, hnew]
      simp [Job.Recorded, Job.new]
    · obtain ⟨i, hi, hm⟩ := moves_of_step he hj
      obtain rfl : i = j' := Option.some.inj (hi.symm.trans hj')
      exact (hc.recorded h j hj).moves hm
  · intro h hnone
    have hold : c.server.heap[h]? = none := by
      by_contra hsome
      obtain ⟨j, hj⟩ := Option.ne_none_iff_exists'.mp hsome
      obtain ⟨j', hj', -⟩ := moves_of_step he hj
      simp [hnone] at hj'
    rw [hc.fresh h hold, ends_eq_none he hold]
    rfl
  · intro id h hl
    by_cases hadd : ∀ id name now, e ≠ .addJob id name now
    · exact id_of_step he (hc.mapped id h (lookup_of_step he hadd hl))
    · push Not at hadd
      obtain ⟨i, name, now, rfl⟩ := hadd
      cases effect_of_step he with
      | added _ _ hh hj =>
        by_cases hi : id = i
        · subst hi
          rw [hj, Finmap.lookup_insert] at hl
          obtain rfl := Option.some.inj hl
          exact ⟨_, hh ▸ Server.getElem?_concat_eq_some.mpr (.inr ⟨rfl, rfl⟩), rfl⟩
        · rw [hj, Finmap.lookup_insert_of_ne _ hi] at hl
          exact id_of_step he (hc.mapped id h hl)
      | none _ hs => exact id_of_step he (hc.mapped id h (hs ▸ hl))
  · intro r hr
    have hold : r ∈ c.requests → ∃ j, c'.server.heap[r.h]? = some j ∧ j.job.id = r.name :=
      fun hr => id_of_step he (hc.requested r hr)
    cases effect_of_step he with
    | added _ _ _ _ _ hreq => exact hold (hreq ▸ hr)
    | started _ _ _ hreq => exact hold (hreq ▸ hr)
    | @found _ name h hl _ _ hreq =>
      rw [hreq] at hr
      rcases List.mem_cons.mp hr with rfl | hr
      · exact id_of_step he (hc.mapped name h hl)
      · exact hold hr
    | answered _ _ _ _ hreq => exact hold (hreq hr)
    | ran _ _ _ _ hreq => exact hold (hreq ▸ hr)
    | none _ _ _ hreq => exact hold (hreq hr)

theorem run {es : List Call} (hc : Settled past c) (hr : Runs.run Service.step c es = some c') :
    Settled (fun h => (past h).or (outcome h es)) c' := by
  induction es generalizing past c with
  | nil =>
    obtain rfl := Option.some.inj hr
    simpa [outcome] using hc
  | cons e es ih =>
    obtain ⟨d, hd, hr⟩ := run_cons.mp hr
    have hd' := ih (hc.step hd) hr
    have heq : (fun h => ((past h).or (e.ends h)).or (outcome h es)) =
        fun h => (past h).or (outcome h (e :: es)) := by
      funext h
      rw [Option.or_assoc]
      congr 1
      simp only [outcome, List.findSome?_cons]
      cases e.ends h <;> rfl
    rwa [heq] at hd'

/-- What is reported of a job object is what its call has come to. -/
theorem report (hc : Settled past c) (he : c.step e = some c') {h : Nat} {op : Operation}
    (hrep : c.report e = some (h, op)) :
    ∃ j, c.server.heap[h]? = some j ∧ op = j.job.operation (past h) := by
  have hread : ∀ {id : String} {j : TtlJob}, c.server.heap[h]? = some j → j.job.id = id →
      getOperationData id j.job = some op → op = j.job.operation (past h) := by
    rintro id j hj rfl hop
    exact (hc.recorded h j hj).report hop
  cases e with
  | answer r =>
    have hr : r ∈ c.requests := by
      by_contra hr
      simp [Service.step, hr] at he
    simp only [Service.report] at hrep
    split at hrep
    · cases hrep
    · obtain ⟨j, hj, hrep⟩ := Option.bind_eq_some_iff.mp hrep
      obtain ⟨op', hop, hrep⟩ := Option.bind_eq_some_iff.mp hrep
      obtain ⟨rfl, rfl⟩ := Prod.mk.inj (Option.some.inj hrep)
      obtain ⟨j', hj', hid⟩ := hc.requested r hr
      obtain rfl : j = j' := Option.some.inj (hj.symm.trans hj')
      exact ⟨j, hj, hread hj hid hop⟩
  | listOperation =>
    simp only [Service.report] at hrep
    split at hrep
    · next id rest _ =>
      obtain ⟨k, hk, hrep⟩ := Option.bind_eq_some_iff.mp hrep
      obtain ⟨j, hj, hrep⟩ := Option.bind_eq_some_iff.mp hrep
      obtain ⟨op', hop, hrep⟩ := Option.bind_eq_some_iff.mp hrep
      obtain ⟨rfl, rfl⟩ := Prod.mk.inj (Option.some.inj hrep)
      obtain ⟨j', hj', hid⟩ := hc.mapped id k hk
      obtain rfl : j = j' := Option.some.inj (hj.symm.trans hj')
      exact ⟨j, hj, hread hj hid hop⟩
    · cases hrep
  | _ => cases hrep

theorem of_run {es : List Call} (hr : Runs.run Service.step Service.new es = some c) :
    Settled (fun h => outcome h es) c := by
  simpa using new.run hr

theorem id_of_run {es : List Call} {h : Nat} {id : String}
    (hr : Runs.run Service.step c es = some c')
    (hj : ∃ j, c.server.heap[h]? = some j ∧ j.job.id = id) :
    ∃ j, c'.server.heap[h]? = some j ∧ j.job.id = id := by
  induction es generalizing c with
  | nil =>
    obtain rfl := Option.some.inj hr
    exact hj
  | cons e es ih =>
    obtain ⟨d, hd, hr⟩ := run_cons.mp hr
    exact ih hr (id_of_step hd hj)

/-- After the end of its call a job is reported as before. -/
theorem report_again {es fs : List Call} {f : Call} {d d' : Service} {h : Nat}
    {op op' : Operation} {o : Outcome} (hr : Runs.run Service.step Service.new es = some c)
    (he : c.step e = some c') (hop : c.report e = some (h, op))
    (hs : Runs.run Service.step c' fs = some d) (hf : d.step f = some d')
    (hop' : d.report f = some (h, op')) (ho : outcome h es = some o) : op' = op := by
  have hc := of_run hr
  obtain ⟨j, hj, rfl⟩ := hc.report he hop
  obtain ⟨j', hj', rfl⟩ := ((hc.step he).run hs).report hf hop'
  obtain ⟨i, hi, hid⟩ := id_of_run hs (id_of_step he ⟨j, hj, rfl⟩)
  obtain rfl : i = j' := Option.some.inj (hi.symm.trans hj')
  simp [ho, Job.operation, hid]

end Settled

section Results

variable {es fs : List Call} {e f : Call} {c c' d d' : Service} {h : Nat} {op op' : Operation}

/--
A report is done exactly when the call of its job is over. From then on every report of the job
is the same and carries what the call came to: an error when there was one, else the response
when there was one. A call that returned an error or panicked with a reason is never reported as
a success.
-/
theorem reports_settle (hr : run step new es = some c) (he : c.step e = some c')
    (hop : c.report e = some (h, op)) (hs : run step c' fs = some d) (hf : d.step f = some d')
    (hop' : d.report f = some (h, op')) :
    (op.done = true ↔ ∃ o, outcome h es = some o) ∧
      (op.done = true → op' = op) ∧
      ∀ o, outcome h es = some o → o ≠ .panicked none →
        op.result = o.result ∧
        (o.Failed → ∃ code message, op.result = some (.error code message)) := by
  obtain ⟨j, -, hread⟩ := (Settled.of_run hr).report he hop
  have hdone : op.done = true ↔ ∃ o, outcome h es = some o := by
    rw [hread]
    cases outcome h es <;> simp [Job.operation]
  refine ⟨hdone, ?_, ?_⟩
  · intro hd
    obtain ⟨o, ho⟩ := hdone.mp hd
    exact Settled.report_again hr he hop hs hf hop' ho
  · intro o ho _
    have hresult : op.result = o.result := by rw [hread, ho, Job.operation]
    exact ⟨hresult, fun hfailed => hresult ▸ hfailed.result⟩

end Results

/-- One job from its start to its end, polled after it. -/
def lifeOf (o : Outcome) : List Call :=
  [.addJob "BackupRMAN_1" "RMAN" 1, .startJob "BackupRMAN_1" 0, .server (.finish 0 o),
    .find .getOperation "BackupRMAN_1"]

/-- A call that returns neither a response nor an error is reported done with neither. -/
theorem report_of_nothing : ¬ ∀ (es : List Call) (c c' : Service) (e : Call) (h : Nat)
    (op : Operation), run step new es = some c → c.step e = some c' →
      c.report e = some (h, op) → op.done = true →
      (∃ code message, op.result = some (.error code message)) ∨
        ∃ value, op.result = some (.response value) := by
  intro hall
  have h := hall (lifeOf (.returned none none)) _ _ (.answer ⟨.getOperation, "BackupRMAN_1", 0⟩) 0
    ⟨"BackupRMAN_1", true, none⟩ rfl rfl rfl rfl
  simp at h

/-- A call that panics is reported with its error, and so again to a client that waits. -/
theorem report_of_panic : ∃ c d op op',
    run step new (lifeOf (.panicked (some "nil map"))) = some c ∧
      c.report (.answer ⟨.getOperation, "BackupRMAN_1", 0⟩) = some (0, op) ∧
      run step c [.answer ⟨.getOperation, "BackupRMAN_1", 0⟩,
        .find .waitOperation "BackupRMAN_1"] = some d ∧
      d.report (.answer ⟨.waitOperation, "BackupRMAN_1", 0⟩) = some (0, op') ∧
      op' = op ∧ ∃ code message, op.result = some (.error code message) := by
  have h := @reports_settle (lifeOf (.panicked (some "nil map")))
    [.find .waitOperation "BackupRMAN_1"] (.answer ⟨.getOperation, "BackupRMAN_1", 0⟩)
    (.answer ⟨.waitOperation, "BackupRMAN_1", 0⟩) _ _ _ _ 0 _ _ rfl rfl rfl rfl rfl rfl
  exact ⟨_, _, _, _, rfl, rfl, rfl, rfl, h.2.1 rfl, (h.2.2 _ rfl (by decide)).2 rfl⟩

end Service

end ElCarro.Lro
