import ElCarro.DataPump.System

/-! # What is recorded of a data pump operation, and how often it is executed

Complete and Failed are recorded for an operation that ended so, and for good. The controller
may repeat the call that launches the operation whenever an update of the status is lost; as
long as the job map of the daemon retains the ID, at most one of the calls executes the data
pump.
-/

namespace ElCarro.DataPump

open GoTime K8s Runs
open Lro (Server)

variable {Spec Request : Type}

section Properties

variable (c : Controller Spec Request)

/-- Complete is recorded when a job of the operation ended without an error, Failed when one
ended with an error. -/
def RecordsEnd (s : System Spec) : Prop :=
  ∀ o ∈ s.current,
    (o.state = some c.reasons.complete → Ends s.ended (lroOperationID c o) (· = none)) ∧
    (o.state = some c.reasons.failed → Ends s.ended (lroOperationID c o) (· ≠ none))

/-- Complete and Failed are not left. -/
def StaysDecided (s : System Spec) (_ : Event Spec) (t : System Spec) : Prop :=
  ∀ o ∈ s.current, ∀ reason ∈ [c.reasons.complete, c.reasons.failed], o.state = some reason →
    ∃ o' ∈ t.current, o'.state = some reason

/-- The event starts a job of the ID on the daemon of the instance. -/
def starts (inst id : String) (s : System Spec) : Event Spec → Bool
  | .daemon i (.start h) => i = inst && ((s.daemons inst).heap[h]?).any fun j => j.job.id = id
  | _ => false

/-- How often a job of the ID is started in a run. -/
def executions [DecidableEq Spec] (inst id : String) : System Spec → List (Event Spec) → Nat
  | _, [] => 0
  | s, e :: es =>
    match s.step c e with
    | none => 0
    | some t => (if starts inst id s e then 1 else 0) + executions inst id t es

/-- The job map of the daemon has the ID. -/
def Retains (inst id : String) (s : System Spec) : Prop := id ∈ (s.daemons inst).jobs

instance (inst id : String) (s : System Spec) : Decidable (Retains inst id s) :=
  inferInstanceAs (Decidable (_ ∈ _))

end Properties

section Decided

variable [DecidableEq Spec] {c : Controller Spec Request} {id : String} {s t : System Spec}
  {e : Event Spec}

omit [DecidableEq Spec] in
theorem Sound.recordsEnd (hs : Sound c id s) : RecordsEnd c s := by
  intro o ho
  have hjust := hs.versions o (List.mem_of_getLast? ho)
  rw [hjust.id_eq]
  exact ⟨hjust.complete, hjust.failed⟩

omit [DecidableEq Spec] in
theorem not_undecided {o : Object Spec} {reason : Reason}
    (hreason : reason ∈ [c.reasons.complete, c.reasons.failed]) (ho : o.state = some reason) :
    ¬ Undecided c o := by
  have hd := c.reasons.distinct
  simp only [List.nodup_cons, List.mem_cons, List.not_mem_nil, or_false, not_or] at hd hreason
  rintro (h | h | h)
  all_goals
    rw [ho] at h
    grind

theorem Sound.staysDecided (hs : Sound c id s) (hstep : s.step c e = some t) :
    StaysDecided c s e t := by
  intro o ho reason hreason hstate
  -- every step but an update and an edit leaves the versions alone
  have hsame : t.versions = s.versions → ∃ o' ∈ t.current, o'.state = some reason := by
    intro hv
    rw [System.current, hv]
    exact ⟨o, ho, hstate⟩
  cases e with
  | reconcile version env delivery =>
    obtain ⟨o', -, hstep⟩ := Option.bind_eq_some_iff.mp hstep
    obtain ⟨server, -, hstep⟩ := Option.bind_eq_some_iff.mp hstep
    obtain rfl := Option.some.inj hstep
    exact hsame rfl
  | write update accepted =>
    obtain ⟨version, o'⟩ := update
    simp only [System.step] at hstep
    split at hstep
    · next hmem =>
      obtain rfl := Option.some.inj hstep
      by_cases hnew : accepted ∧ ¬ s.deleted ∧ version + 1 = s.versions.length ∧
          s.current ≠ some o'
      · -- the update is based on the current version, which is not decided
        have hread : s.versions[version]? = some o := by
          have hlast : s.versions.getLast? = some o := ho
          rw [List.getLast?_eq_getElem?] at hlast
          rwa [← hnew.2.2.1, Nat.add_sub_cancel] at hlast
        exact absurd (hs.based version o' o hmem hread) (not_undecided hreason hstate)
      · apply hsame
        exact if_neg hnew
    · cases hstep
  | edit spec =>
    simp only [System.step] at hstep
    split at hstep
    · cases hstep
    · obtain ⟨o', ho', rfl⟩ := Option.map_eq_some_iff.mp hstep
      obtain rfl : o = o' := Option.some.inj (ho.symm.trans ho')
      exact ⟨{ o with spec := spec }, by simp [System.current], hstate⟩
  | delete =>
    obtain rfl := Option.some.inj hstep
    exact hsame rfl
  | daemon inst e =>
    simp only [System.step] at hstep
    split at hstep
    · cases hstep
    · obtain ⟨server, -, rfl⟩ := Option.map_eq_some_iff.mp hstep
      exact hsame rfl
  | restart inst =>
    obtain rfl := Option.some.inj hstep
    exact hsame rfl

end Decided

section Executions

variable [DecidableEq Spec] {c : Controller Spec Request} {own inst id : String}
  {s t : System Spec} {e : Event Spec}

/-- What a step does to the daemon of an instance. -/
theorem daemon_of_step (hstep : s.step c e = some t) :
    t.daemons inst = s.daemons inst ∨ t.daemons inst = .NewServer ∨
      ∃ ev, (s.daemons inst).step ev = some (t.daemons inst) := by
  cases e with
  | reconcile version env delivery =>
    obtain ⟨o, -, hstep⟩ := Option.bind_eq_some_iff.mp hstep
    obtain ⟨server, hserver, hstep⟩ := Option.bind_eq_some_iff.mp hstep
    obtain rfl := Option.some.inj hstep
    by_cases hi : inst = c.instName o.spec
    · subst hi
      simp only [Function.update_self]
      unfold launched at hserver
      split at hserver
      · exact .inr (.inr ⟨_, hserver⟩)
      · exact .inl (Option.some.inj hserver).symm
    · simp [Function.update_of_ne hi]
  | write update accepted =>
    simp only [System.step] at hstep
    split at hstep
    · obtain rfl := Option.some.inj hstep
      exact .inl rfl
    · cases hstep
  | edit spec =>
    simp only [System.step] at hstep
    split at hstep
    · cases hstep
    · obtain ⟨o, -, rfl⟩ := Option.map_eq_some_iff.mp hstep
      exact .inl rfl
  | delete =>
    obtain rfl := Option.some.inj hstep
    exact .inl rfl
  | daemon i ev =>
    simp only [System.step] at hstep
    split at hstep
    · cases hstep
    · obtain ⟨server, he, rfl⟩ := Option.map_eq_some_iff.mp hstep
      by_cases hi : inst = i
      · subst hi
        exact .inr (.inr ⟨ev, by simpa using he⟩)
      · simp [Function.update_of_ne hi]
  | restart i =>
    obtain rfl := Option.some.inj hstep
    by_cases hi : inst = i
    · subst hi
      simp
    · simp [Function.update_of_ne hi]

/-- The event that starts a job is a step of the daemon. -/
theorem step_of_starts (hstep : s.step c e = some t) (h : starts inst id s e = true) :
    ∃ k j, (s.daemons inst).step (.start k) = some (t.daemons inst) ∧
      (s.daemons inst).heap[k]? = some j ∧ j.job.id = id := by
  unfold starts at h
  split at h
  · next i k =>
    simp only [Bool.and_eq_true, decide_eq_true_eq, Option.any_eq_true] at h
    obtain ⟨rfl, j, hj, hid⟩ := h
    simp only [System.step] at hstep
    split at hstep
    · cases hstep
    · obtain ⟨server, he, rfl⟩ := Option.map_eq_some_iff.mp hstep
      exact ⟨k, j, by simpa using he, hj, hid⟩
  · cases h

/-- While the map retains the ID, it keeps the job that it has under it, and the job its task. -/
theorem started_of_step {h : Nat} {j : Lro.TtlJob} (hstep : s.step c e = some t)
    (ht : Retains inst id t) (hl : (s.daemons inst).jobs.lookup id = some h)
    (hj : (s.daemons inst).heap[h]? = some j) (htask : j.job.task ≠ none) :
    (t.daemons inst).jobs.lookup id = some h ∧
      ∃ j', (t.daemons inst).heap[h]? = some j' ∧ j'.job.task ≠ none := by
  rcases daemon_of_step hstep with hsame | hnew | ⟨ev, he⟩
  · rw [hsame]
    exact ⟨hl, j, hj, htask⟩
  · rw [Retains, hnew] at ht
    exact absurd ht (Finmap.notMem_empty)
  · obtain ⟨j', hj', hmoves⟩ := Server.moves_of_step he hj
    refine ⟨?_, j', hj', hmoves.task_ne_none htask⟩
    rcases Server.lookup_kept_or_dropped he hl with hkept | hdropped
    · exact hkept
    · exact absurd ht (Finmap.lookup_eq_none.mp hdropped)

theorem not_starts_of_started {h : Nat} {j : Lro.TtlJob} (hs : Sound c own s)
    (hstep : s.step c e = some t) (hl : (s.daemons inst).jobs.lookup id = some h)
    (hj : (s.daemons inst).heap[h]? = some j) (htask : j.job.task ≠ none) :
    starts inst id s e = false := by
  by_contra hstarts
  obtain ⟨k, i, he, hi, hid⟩ := step_of_starts hstep (by simpa using hstarts)
  have hk : (s.daemons inst).jobs.lookup id = some k := by
    rw [← hid]
    exact (hs.daemons inst).regular.lookup_of_start he hi
  obtain rfl : h = k := Option.some.inj (hl.symm.trans hk)
  obtain rfl : j = i := Option.some.inj (hj.symm.trans hi)
  simp [Server.step, hj, htask] at he

/-- A job that has been started under the ID is the last one while the map retains it. -/
theorem executions_eq_zero {h : Nat} {j : Lro.TtlJob} {es : List (Event Spec)} (hs : Sound c own s)
    (hretains : Always (System.step c) (Retains inst id) s es)
    (hl : (s.daemons inst).jobs.lookup id = some h)
    (hj : (s.daemons inst).heap[h]? = some j) (htask : j.job.task ≠ none) :
    executions c inst id s es = 0 := by
  induction es generalizing s j with
  | nil => rfl
  | cons e es ih =>
    rw [executions]
    cases hstep : s.step c e with
    | none => rfl
    | some t =>
      have hrest := hretains.2 t hstep
      obtain ⟨hl', j', hj', htask'⟩ := started_of_step hstep hrest.first hl hj htask
      simp only [not_starts_of_started hs hstep hl hj htask, ih (hs.step hstep) hrest hl' hj' htask',
        Bool.false_eq_true, if_false, Nat.add_zero]

theorem executions_le_one {es : List (Event Spec)} (hs : Sound c own s)
    (hretains : Always (System.step c) (Retains inst id) s es) :
    executions c inst id s es ≤ 1 := by
  induction es generalizing s with
  | nil => exact Nat.zero_le 1
  | cons e es ih =>
    rw [executions]
    cases hstep : s.step c e with
    | none => exact Nat.zero_le 1
    | some t =>
      have hrest := hretains.2 t hstep
      cases hstarts : starts inst id s e with
      | false => simpa [hstarts] using ih (hs.step hstep) hrest
      | true =>
        obtain ⟨k, j, he, hj, hid⟩ := step_of_starts hstep hstarts
        have hl := (hs.daemons inst).regular.lookup_of_start he hj
        rw [hid] at hl
        obtain ⟨j', hj', hmoves⟩ := Server.moves_of_step he hj
        simp only [Lro.Event.turn, if_true] at hmoves
        have htask : j'.job.task ≠ none := by
          rw [hmoves.eq_start]
          simp [Lro.Job.start]
        have hl' : (t.daemons inst).jobs.lookup id = some k := by
          rcases Server.lookup_kept_or_dropped he hl with hkept | hdropped
          · exact hkept
          · exact absurd hrest.first (Finmap.lookup_eq_none.mp hdropped)
        simp [executions_eq_zero (hs.step hstep) hrest hl' hj' htask]

end Executions

section Results

/-- What holds of the runs of a controller from a new object on. -/
structure KeepsRecords [DecidableEq Spec] (c : Controller Spec Request) : Prop where
  records : ∀ (o : Object Spec) (es : List (Event Spec)), o.state = none →
    Always (System.step c) (RecordsEnd c) (System.new o) es
  decided : ∀ (o : Object Spec) (es : List (Event Spec)), o.state = none →
    EachStep (System.step c) (StaysDecided c) (System.new o) es
  once : ∀ (o : Object Spec) (es fs : List (Event Spec)) (s : System Spec) (inst : String),
    o.state = none → run (System.step c) (System.new o) es = some s →
    Always (System.step c) (Retains inst (lroOperationID c o)) s fs →
    executions c inst (lroOperationID c o) s fs ≤ 1

theorem keepsRecords [DecidableEq Spec] (c : Controller Spec Request) : KeepsRecords c := by
  have hall : ∀ (o : Object Spec) (es : List (Event Spec)),
      Meets (System.step c) (fun _ _ => True) (System.new o) es :=
    fun o es => meets_of_forall (fun _ _ => trivial) _ es
  have hnew : ∀ {o : Object Spec}, o.state = none → Sound c (lroOperationID c o) (System.new o) :=
    fun ho => .new ho
  constructor
  · intro o es ho
    apply always_of_invariant _ _ (hnew ho) (hall o es)
    · intro s e t hs _ hstep
      exact hs.step hstep
    · intro s hs
      exact hs.recordsEnd
  · intro o es ho
    apply eachStep_of_invariant _ _ (hnew ho) (hall o es)
    · intro s e t hs _ hstep
      exact hs.step hstep
    · intro s e t hs _ hstep
      exact hs.staysDecided hstep
  · intro o es fs s inst ho hr hretains
    have hs : Sound c (lroOperationID c o) s :=
      invariant (fun _ _ _ hs _ hstep => hs.step hstep) (hnew ho) (hall o es) hr
    exact executions_le_one hs hretains

/--
In every run of the two controllers, with stale reads and lost updates of the status: Complete is
recorded only for an operation that ended without an error, Failed only for one that ended with an
error, neither is left again, and the data pump is executed at most once while the daemon's map
retains the operation ID.
-/
theorem importAndExport_keepRecords :
    KeepsRecords importController ∧ KeepsRecords exportController :=
  ⟨keepsRecords importController, keepsRecords exportController⟩

def exportOf (spec : ExportSpec) : Object ExportSpec := ⟨"7", spec, []⟩

def readyEnv (now : Time) : Env where
  now := now
  offset := 0
  database _ := .ok ⟨"mydb", "pdb1", [⟨.ready, .true, .createComplete, "", 0⟩]⟩
  inst _ := .ok ⟨"gke"⟩
  launch := .ok ()
  operation := .ok ⟨"", false, none⟩

/-- The first update is lost and the call repeated; the data pump runs once and completes. -/
example : ((run (System.step exportController)
    (System.new (exportOf ⟨"mydb", "pdb1", "Schemas", ["scott"], "gs://b/e.dmp", "", none⟩))
    [.reconcile 0 (readyEnv 1000) .replied, .daemon "mydb" (.start 0),
      .reconcile 0 (readyEnv 2000) .replied,
      .write (0, setState exportController 2000 .exportInProgress ""
        (setState exportController 2000 .exportPending ""
          (exportOf ⟨"mydb", "pdb1", "Schemas", ["scott"], "gs://b/e.dmp", "", none⟩))) true,
      .daemon "mydb" (.finish 0 (.returned none none)),
      .reconcile 1 (readyEnv 3000) .replied]).any fun s =>
        s.writes.length = 2 ∧ (s.daemons "mydb").heap.length = 1) = true := by
  decide +kernel

end Results

end ElCarro.DataPump
