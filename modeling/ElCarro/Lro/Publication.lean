import ElCarro.Lro.Requests

/-! # Jobs that are found before they are started

`addAndStartJob` puts the job into the map in one critical section and sets its task later,
without the lock. Until then a request or the cleanup can find the job, and what it reads of
it is a nil task. A call for an ID that the map already has returns the job it has just
allocated, which nobody starts.
-/

namespace ElCarro.Lro.Service

open GoTime Runs

/-- Every job that the step finds, and every job it returns without error, has its task. -/
def AllStarted (c : Service) (e : Call) : Prop :=
  (∀ h ∈ c.found e, ∃ j, c.server.heap[h]? = some j ∧ j.job.task ≠ none) ∧
  ∀ job ∈ c.returned e, job.task ≠ none

/-- The map has no job under this ID that its `addAndStartJob` call has yet to start. -/
def Ready (c : Service) (id : String) : Prop :=
  ∀ h ∈ c.server.jobs.lookup id, (id, h) ∉ c.starting

instance (c : Service) (id : String) : Decidable (c.Ready id) :=
  inferInstanceAs (Decidable (∀ h ∈ _, _))

/-- A new job has a new ID, and an ID is looked up when its job is ready. -/
def InTurn (c : Service) : Call → Prop
  | .addJob id _ _ => id ∉ c.server.jobs
  | .find _ name => name = "" ∨ c.Ready name
  | .listOperation => ∀ ids ∈ c.listing, ∀ id ∈ ids.head?, c.Ready id
  | .server (.checkDelete id) => c.Ready id
  | _ => True

instance decidableInTurn (c : Service) : (e : Call) → Decidable (c.InTurn e)
  | .addJob _ _ _ => inferInstanceAs (Decidable (¬ _))
  | .find _ _ => inferInstanceAs (Decidable (_ ∨ _))
  | .listOperation => inferInstanceAs (Decidable (∀ ids ∈ _, ∀ id ∈ _, _))
  | .server (.checkDelete _) => inferInstanceAs (Decidable (Ready _ _))
  | .server (.addJob _ _ _) | .server (.start _) | .server (.finish _ _)
  | .server (.findDeleted _) | .server (.markDeleted _ _) | .server (.lockExpired _ _ _)
  | .server .checkComplete | .server .removeExpired | .server .unlockExpired
  | .startJob _ _ | .answer _ | .invalidTimeout _ | .timeOut _ | .listOperations _ _
  | .listed => isTrue trivial

/-- The jobs without a task are the ones that a call is about to start. -/
structure Published (c : Service) : Prop where
  mapped : ∀ id h, c.server.jobs.lookup id = some h → ∃ j, c.server.heap[h]? = some j ∧
    (j.job.task ≠ none ∨ (id, h) ∈ c.starting)
  unstarted : ∀ id h, (id, h) ∈ c.starting → ∃ j, c.server.heap[h]? = some j ∧ j.job.task = none
  once : (c.starting.map Prod.snd).Nodup

namespace Published

variable {c c' : Service} {e : Call}

theorem new : Published Service.new where
  mapped := by simp [Service.new, Server.NewServer]
  unstarted := by simp [Service.new]
  once := by simp [Service.new]

/-- Only `start` gives a job its task. -/
theorem unstarted_of_moves {turn : Option Turn} {j j' : Job} (h : Job.Moves turn j j')
    (hturn : turn ≠ some .starts) (ht : j.task = none) : j'.task = none := by
  cases h with
  | same => exact ht
  | cancelled hr => simp [ht] at hr
  | started => exact absurd rfl hturn
  | ended _ hr => simp [ht] at hr

theorem lt_length (hc : Published c) {id : String} {h : Nat} (hm : (id, h) ∈ c.starting) :
    h < c.server.heap.length := by
  obtain ⟨j, hj, -⟩ := hc.unstarted id h hm
  exact (List.getElem?_eq_some_iff.mp hj).1

/-- The jobs under way before a step that starts none of them. -/
theorem unstarted_of_step (hc : Published c) (he : c.step e = some c') {id : String} {h : Nat}
    (hturn : e.turn h ≠ some .starts) (hm : (id, h) ∈ c.starting) :
    ∃ j, c'.server.heap[h]? = some j ∧ j.job.task = none := by
  obtain ⟨j, hj, ht⟩ := hc.unstarted id h hm
  obtain ⟨j', hj', hmoves⟩ := moves_of_step he hj
  exact ⟨j', hj', unstarted_of_moves hmoves hturn ht⟩

/-- The entries of the map before a step, when the step starts nothing. -/
theorem mapped_of_step (hc : Published c) (he : c.step e = some c') {id : String} {h : Nat}
    (hst : (id, h) ∈ c.starting → (id, h) ∈ c'.starting)
    (hl : c.server.jobs.lookup id = some h) :
    ∃ j, c'.server.heap[h]? = some j ∧ (j.job.task ≠ none ∨ (id, h) ∈ c'.starting) := by
  obtain ⟨j, hj, ht⟩ := hc.mapped id h hl
  obtain ⟨j', hj', hmoves⟩ := moves_of_step he hj
  exact ⟨j', hj', ht.imp hmoves.task_ne_none hst⟩

theorem step_added (hc : Published c) {id name : String} {now : Time}
    (he : c.step (.addJob id name now) = some c')
    (hh : c'.server.heap = c.server.heap ++ [⟨Job.new id name, now, 0, 0⟩])
    (hj : c'.server.jobs = c.server.jobs.insert id c.server.heap.length)
    (hst : c'.starting = (id, c.server.heap.length) :: c.starting) : Published c' := by
  have hnew : c'.server.heap[c.server.heap.length]? = some ⟨Job.new id name, now, 0, 0⟩ := by
    rw [hh]
    exact Server.getElem?_concat_eq_some.mpr (.inr ⟨rfl, rfl⟩)
  constructor
  · intro i h hl
    by_cases hi : i = id
    · subst hi
      rw [hj, Finmap.lookup_insert] at hl
      obtain rfl := Option.some.inj hl
      exact ⟨_, hnew, .inr (by simp [hst])⟩
    · rw [hj, Finmap.lookup_insert_of_ne _ hi] at hl
      exact hc.mapped_of_step he (fun hm => hst ▸ List.mem_cons_of_mem _ hm) hl
  · intro i h hm
    rw [hst] at hm
    rcases List.mem_cons.mp hm with heq | hm
    · obtain ⟨rfl, rfl⟩ := Prod.mk.inj heq
      exact ⟨_, hnew, rfl⟩
    · exact hc.unstarted_of_step he (by simp [Call.turn]) hm
  · rw [hst, List.map_cons, List.nodup_cons]
    refine ⟨?_, hc.once⟩
    rintro hmem
    obtain ⟨⟨i, h⟩, hm, heq⟩ := List.mem_map.mp hmem
    have hlt : h < c.server.heap.length := hc.lt_length hm
    exact absurd heq hlt.ne

theorem step_started (hc : Published c) {id : String} {h : Nat}
    (he : c.step (.startJob id h) = some c') (hmem : (id, h) ∈ c.starting)
    (hst : c'.starting = c.starting.erase (id, h)) : Published c' := by
  have hnodup : c.starting.Nodup := hc.once.of_map
  constructor
  · intro i k hl
    have hl' : c.server.jobs.lookup i = some k := lookup_of_step he (by simp) hl
    by_cases hk : h = k
    · subst hk
      obtain ⟨j, hj, ht⟩ := hc.unstarted id h hmem
      obtain ⟨j', hj', hmoves⟩ := moves_of_step he hj
      refine ⟨j', hj', .inl ?_⟩
      simp only [Call.turn, Event.turn, if_true] at hmoves
      rw [hmoves.eq_start]
      simp [Job.start]
    · apply hc.mapped_of_step he _ hl'
      intro hm
      rw [hst, hnodup.mem_erase_iff]
      refine ⟨?_, hm⟩
      rintro heq
      exact hk (Prod.mk.inj heq).2.symm
  · intro i k hm
    rw [hst, hnodup.mem_erase_iff] at hm
    have hk : h ≠ k := by
      rintro rfl
      exact hm.1 (List.inj_on_of_nodup_map hc.once hm.2 hmem rfl)
    exact hc.unstarted_of_step he (by simp [Call.turn, Event.turn, hk]) hm.2
  · rw [hst]
    exact hc.once.sublist (List.erase_sublist.map _)

theorem step (hc : Published c) (he : c.step e = some c') : Published c' := by
  -- steps that neither add nor start a job
  have hother : (∀ id name now, e ≠ .addJob id name now) → (∀ h, e.turn h ≠ some .starts) →
      c'.starting = c.starting → Published c' := by
    intro hadd hturn hst
    constructor
    · intro id h hl
      exact hc.mapped_of_step he (fun hm => hst ▸ hm) (lookup_of_step he hadd hl)
    · intro id h hm
      exact hc.unstarted_of_step he (hturn h) (hst ▸ hm)
    · rw [hst]
      exact hc.once
  cases effect_of_step he with
  | added _ _ hh hj hst => exact hc.step_added he hh hj hst
  | started hmem _ hst => exact hc.step_started he hmem hst
  | found _ _ hst => exact hother (by simp) (by simp [Call.turn]) hst
  | answered _ _ _ hst => exact hother (by simp) (by simp [Call.turn]) hst
  | @ran ev _ hstart _ hst =>
    apply hother (by simp) _ hst
    intro h
    cases ev with
    | start k => exact absurd rfl (hstart k)
    | finish k o =>
      simp only [Call.turn, Event.turn]
      split <;> simp
    | _ => simp [Call.turn, Event.turn]
  | none hturn hs hst =>
    constructor
    · intro id h hl
      rw [hs] at hl ⊢
      rw [hst]
      exact hc.mapped id h hl
    · rw [hs, hst]
      exact hc.unstarted
    · rw [hst]
      exact hc.once

theorem of_run {es : List Call} (hr : run Service.step Service.new es = some c) :
    Published c := by
  have hm : Meets Service.step (fun _ _ => True) Service.new es :=
    meets_of_forall (fun _ _ => trivial) _ _
  exact invariant (fun _ _ _ hc _ he => hc.step he) new hm hr

/-- The entry of an ID is found with its task exactly when the ID is ready. -/
theorem ready_iff (hc : Published c) {id : String} :
    (∀ h ∈ c.server.jobs.lookup id, ∃ j, c.server.heap[h]? = some j ∧ j.job.task ≠ none) ↔
      c.Ready id := by
  constructor
  · intro hall h hl hm
    obtain ⟨j, hj, ht⟩ := hall h hl
    obtain ⟨j', hj', hnone⟩ := hc.unstarted id h hm
    obtain rfl : j = j' := Option.some.inj (hj.symm.trans hj')
    exact ht hnone
  · intro hready h hl
    obtain ⟨j, hj, ht | hm⟩ := hc.mapped id h hl
    · exact ⟨j, hj, ht⟩
    · exact absurd hm (hready h hl)

theorem ready_name_iff (hc : Published c) {name : String} :
    (∀ h ∈ (c.server.validateAndGetOperation name).toOption,
      ∃ j, c.server.heap[h]? = some j ∧ j.job.task ≠ none) ↔ name = "" ∨ c.Ready name := by
  by_cases hname : name = ""
  · simp [Server.validateAndGetOperation, hname, Except.toOption]
  · rw [or_iff_right hname, ← hc.ready_iff]
    cases hl : c.server.jobs.lookup name <;>
      simp [Server.validateAndGetOperation, hname, hl, Except.toOption]

theorem allStarted_iff (hc : Published c) : c.AllStarted e ↔ c.InTurn e := by
  cases e with
  | addJob id name now =>
    by_cases hid : id ∈ c.server.jobs
    · simp [AllStarted, InTurn, found, returned, Server.addJob, hid, Job.new]
    · simp [AllStarted, InTurn, found, returned, Server.addJob, hid]
  | startJob id h => simp [AllStarted, InTurn, found, returned, Job.start]
  | find handler name =>
    simp only [AllStarted, InTurn, found, returned, Option.mem_def, reduceCtorEq,
      IsEmpty.forall_iff, implies_true, and_true]
    exact hc.ready_name_iff
  | listOperation =>
    simp only [AllStarted, InTurn, found, returned, Option.mem_def, reduceCtorEq,
      IsEmpty.forall_iff, implies_true, and_true]
    rcases c.listing with _ | _ | ⟨id, rest⟩
    · simp
    · simp
    · simpa using hc.ready_iff
  | server ev =>
    cases ev with
    | checkDelete id =>
      simp only [AllStarted, InTurn, found, returned, Option.mem_def, reduceCtorEq,
        IsEmpty.forall_iff, implies_true, and_true]
      exact hc.ready_iff
    | _ => simp [AllStarted, InTurn, found, returned]
  | _ => simp [AllStarted, InTurn, found, returned]

end Published

/--
In the runs whose steps add new IDs and look up ready ones, every job that is found or returned
has been started; and in every state that any run reaches, the next step finds or returns a job
without a task exactly when it breaks that rule.
-/
theorem started_when_inTurn (es : List Call) :
    (Meets step InTurn new es → EachStep step (fun c e _ => c.AllStarted e) new es) ∧
      ∀ c e, run step new es = some c → (c.AllStarted e ↔ c.InTurn e) := by
  constructor
  · intro hm
    apply eachStep_of_invariant _ _ Published.new hm
    · intro c e c' hc _ he
      exact hc.step he
    · intro c e c' hc hturn _
      exact hc.allStarted_iff.mpr hturn
  · intro c e hr
    exact (Published.of_run hr).allStarted_iff

theorem not_eachStep_of_not_inTurn {es : List Call} {c c' : Service} {e : Call}
    (hr : run step new es = some c) (he : c.step e = some c') (hturn : ¬ c.InTurn e) :
    ¬ EachStep step (fun c e _ => c.AllStarted e) new (es ++ [e]) := by
  intro h
  exact hturn ((Published.of_run hr).allStarted_iff.mp (h.last hr he))

/-- A poll between `AddJob` and `start`, and a call that a client repeats. -/
theorem unstarted_job_found_and_returned :
    ¬ EachStep step (fun c e _ => c.AllStarted e) new
        [.addJob "BackupRMAN_1" "RMAN" 1, .find .getOperation "BackupRMAN_1"] ∧
      ¬ EachStep step (fun c e _ => c.AllStarted e) new
        [.addJob "BackupRMAN_1" "RMAN" 1, .startJob "BackupRMAN_1" 0,
          .addJob "BackupRMAN_1" "RMAN" 2] := by
  constructor
  · have hr : run step new [.addJob "BackupRMAN_1" "RMAN" 1] = some _ := rfl
    exact not_eachStep_of_not_inTurn hr rfl (by decide)
  · have hr : run step new [.addJob "BackupRMAN_1" "RMAN" 1, .startJob "BackupRMAN_1" 0] =
        some _ := rfl
    exact not_eachStep_of_not_inTurn hr rfl (by decide)

/-- The same requests, each after the job has been started, and a second job. -/
theorem started_job_found :
    EachStep step (fun c e _ => c.AllStarted e) new
      [.addJob "BackupRMAN_1" "RMAN" 1, .startJob "BackupRMAN_1" 0,
        .addJob "DataPumpExport_2" "DataPumpExport" 2, .find .getOperation "BackupRMAN_1",
        .answer ⟨.getOperation, "BackupRMAN_1", 0⟩, .startJob "DataPumpExport_2" 1,
        .find .waitOperation "DataPumpExport_2"] :=
  (started_when_inTurn _).1 (by decide)

end ElCarro.Lro.Service
