import ElCarro.Lro.Server

/-! # Running jobs and the job map

A cleanup pass drops a job whose delete mark has expired without asking whether
it has finished. The passes that only meet expired marks on finished jobs keep
every unfinished job in the map, so that an operation ID never has two
executions at once; any other pass can be continued to a run that loses one.
-/

namespace ElCarro.Lro.Server

open GoTime Runs

/-- The job object at the handle has been started and its call has not returned. -/
def InProgress (s : Server) (h : Nat) (id : String) : Prop :=
  ∃ j c, s.heap[h]? = some j ∧ j.job.id = id ∧ j.job.task = some (.running c)

/-- Every execution in progress is in the map, and no operation ID has two of them. -/
def RunningMapped (s : Server) : Prop :=
  (∀ h id, s.InProgress h id → s.jobs.lookup id = some h) ∧
  ∀ h h' id, s.InProgress h id → s.InProgress h' id → h = h'

/-- A cleanup pass that finds an expired delete mark finds it on a finished job. -/
def ExpiredMarksFinished (s : Server) : Event → Prop
  | .checkDelete id => ∀ c ∈ s.cleanup, ∀ h ∈ s.jobs.lookup id, ∀ j ∈ s.heap[h]?,
    isDeletedJobExpired j c.now c.ttlAfterDelete = true → j.job.task = some .finished
  | _ => True

instance (s : Server) (e : Event) : Decidable (ExpiredMarksFinished s e) := by
  unfold ExpiredMarksFinished
  split <;> infer_instance

/-- The job at the handle has finished. -/
def Finished (s : Server) (h : Nat) : Prop :=
  ∃ j, s.heap[h]? = some j ∧ j.job.task = some .finished

/-- The loop of a cleanup pass is in the middle of its body for this entry. -/
def Visiting (s : Server) (id : String) (h : Nat) (shouldDelete : Bool) : Prop :=
  ∃ c, s.cleanup = some c ∧
    (c.visit = .checkedDelete id h shouldDelete ∨ c.visit = .checkedComplete id h shouldDelete)

/-- The job map and the cleanup pass never lose an unfinished job. -/
structure Tracked (s : Server) : Prop where
  mapped : ∀ id h, s.jobs.lookup id = some h → ∃ j, s.heap[h]? = some j ∧ j.job.id = id
  unfinished : ∀ (h : Nat) (j : TtlJob), s.heap[h]? = some j → j.job.task ≠ some .finished →
    s.jobs.lookup j.job.id = some h
  complete : ∀ (h : Nat) (j : TtlJob), s.heap[h]? = some j → ¬ IsZero j.completeTime → j.job.task = some .finished
  visiting : ∀ id h sd, s.Visiting id h sd →
    s.jobs.lookup id = some h ∧ (sd = true → s.Finished h)

theorem Tracked.runningMapped {s : Server} (hs : Tracked s) : s.RunningMapped := by
  have hmap : ∀ h id, s.InProgress h id → s.jobs.lookup id = some h := by
    rintro h id ⟨j, c, hj, rfl, ht⟩
    exact hs.unfinished h j hj (by simp [ht])
  refine ⟨hmap, fun h h' id hi hi' => ?_⟩
  have := hmap h id hi
  rw [hmap h' id hi'] at this
  exact (Option.some.inj this).symm

theorem tracked_newServer : Tracked NewServer where
  mapped := by simp [NewServer]
  unfinished := by simp [NewServer]
  complete := by simp [NewServer]
  visiting := by simp [NewServer, Visiting]

/-- What the goroutines may do to a job object. -/
structure Keeps (j j' : TtlJob) : Prop where
  id : j'.job.id = j.job.id
  finished : j.job.task = some .finished → j'.job.task = some .finished
  complete : ¬ IsZero j'.completeTime → j'.job.task = some .finished

section Update

variable {s : Server} {h : Nat} {f : TtlJob → TtlJob}

theorem heap_update (s : Server) (h : Nat) (f : TtlJob → TtlJob) (k : Nat) :
    (s.update h f).heap[k]? = (s.heap[k]?).map fun j => if h = k then f j else j := by
  simp only [update, List.getElem?_modify]
  rfl

theorem Finished.update {k : Nat} (hk : s.Finished k)
    (hf : ∀ j, s.heap[h]? = some j → Keeps j (f j)) : (s.update h f).Finished k := by
  obtain ⟨j, hj, ht⟩ := hk
  refine ⟨if h = k then f j else j, by simp [heap_update, hj], ?_⟩
  split
  · next hk =>
    subst hk
    exact (hf j hj).finished ht
  · exact ht

theorem Tracked.update (hs : Tracked s) (hf : ∀ j, s.heap[h]? = some j → Keeps j (f j)) :
    Tracked (s.update h f) where
  mapped := by
    intro id k hk
    obtain ⟨j, hj, hid⟩ := hs.mapped id k hk
    refine ⟨if h = k then f j else j, by simp [heap_update, hj], ?_⟩
    split
    · next hk =>
      subst hk
      rw [(hf j hj).id, hid]
    · exact hid
  unfinished := by
    intro k j' hj' ht
    rw [heap_update] at hj'
    obtain ⟨j, hj, rfl⟩ := Option.map_eq_some_iff.mp hj'
    by_cases hk : h = k
    · subst hk
      rw [if_pos rfl] at ht ⊢
      rw [(hf j hj).id]
      exact hs.unfinished h j hj fun hfin => ht ((hf j hj).finished hfin)
    · rw [if_neg hk] at ht ⊢
      exact hs.unfinished k j hj ht
  complete := by
    intro k j' hj' hz
    rw [heap_update] at hj'
    obtain ⟨j, hj, rfl⟩ := Option.map_eq_some_iff.mp hj'
    by_cases hk : h = k
    · subst hk
      rw [if_pos rfl] at hz ⊢
      exact (hf j hj).complete hz
    · rw [if_neg hk] at hz ⊢
      exact hs.complete k j hj hz
  visiting := by
    intro id k sd hv
    obtain ⟨hl, hfin⟩ := hs.visiting id k sd hv
    exact ⟨hl, fun hsd => (hfin hsd).update hf⟩

end Update

theorem getElem?_concat_eq_some {α : Type*} {l : List α} {a b : α} {k : Nat} :
    (l ++ [a])[k]? = some b ↔ l[k]? = some b ∨ (k = l.length ∧ b = a) := by
  rcases Nat.lt_trichotomy k l.length with hlt | rfl | hgt
  · rw [List.getElem?_append_left hlt]
    simp [hlt.ne]
  · simp [eq_comm]
  · rw [List.getElem?_eq_none (by simp; omega), List.getElem?_eq_none (by omega)]
    simp [hgt.ne']

theorem Tracked.addJob {s s' : Server} {id name : String} {now : Time} {h : Nat}
    (hs : Tracked s) (hc : s.cleanup = none)
    (ha : s.addJob id (Job.new id name) now = .ok (h, s')) : Tracked s' := by
  unfold Server.addJob at ha
  split at ha
  · cases ha
  · next hid =>
    cases ha
    have hnone : s.jobs.lookup id = none := Finmap.lookup_eq_none.mpr hid
    constructor
    · intro id' k hk
      by_cases hid' : id' = id
      · subst hid'
        rw [Finmap.lookup_insert] at hk
        cases hk
        exact ⟨⟨Job.new id' name, now, 0, 0⟩, by simp, rfl⟩
      · rw [Finmap.lookup_insert_of_ne _ hid'] at hk
        obtain ⟨j, hj, hjid⟩ := hs.mapped id' k hk
        exact ⟨j, getElem?_concat_eq_some.mpr (Or.inl hj), hjid⟩
    · intro k j hj ht
      rcases getElem?_concat_eq_some.mp hj with hj | ⟨rfl, rfl⟩
      · have hl := hs.unfinished k j hj ht
        have hne : j.job.id ≠ id := by
          rintro rfl
          simp [hnone] at hl
        rwa [Finmap.lookup_insert_of_ne _ hne]
      · exact Finmap.lookup_insert _
    · intro k j hj hz
      rcases getElem?_concat_eq_some.mp hj with hj | ⟨rfl, rfl⟩
      · exact hs.complete k j hj hz
      · exact absurd rfl hz
    · rintro id' k sd ⟨c, hc', -⟩
      simp [hc] at hc'

/-- Steps that leave the heap, the map and the loop body alone. -/
theorem Tracked.of_eq {s s' : Server} (hs : Tracked s) (hheap : s'.heap = s.heap)
    (hjobs : s'.jobs = s.jobs)
    (hv : ∀ id h sd, s'.Visiting id h sd →
      s.jobs.lookup id = some h ∧ (sd = true → s.Finished h)) : Tracked s' where
  mapped := by rw [hheap, hjobs]; exact hs.mapped
  unfinished := by rw [hheap, hjobs]; exact hs.unfinished
  complete := by rw [hheap]; exact hs.complete
  visiting := by unfold Finished; rw [hheap, hjobs]; exact hv

theorem Tracked.removeExpired {s : Server} {id : String} {h : Nat} {sd : Bool} {c c' : Cleanup}
    (hs : Tracked s) (hc : s.cleanup = some c) (hv : c.visit = .checkedComplete id h sd)
    (hv' : c'.visit = .next) :
    Tracked { s with jobs := if sd then s.jobs.erase id else s.jobs, cleanup := some c' } := by
  obtain ⟨hl, hfin⟩ := hs.visiting id h sd ⟨c, hc, Or.inr hv⟩
  have hnext : ∀ id' k sd', ¬ Visiting
      { s with jobs := if sd then s.jobs.erase id else s.jobs, cleanup := some c' } id' k sd' := by
    rintro id' k sd' ⟨c₁, hc₁, hv₁⟩
    obtain rfl : c' = c₁ := Option.some.inj hc₁
    simp [hv'] at hv₁
  cases sd with
  | false => exact hs.of_eq rfl rfl fun id' k sd' hv₁ => absurd hv₁ (hnext id' k sd')
  | true =>
    obtain ⟨j₀, hj₀, ht₀⟩ := hfin rfl
    constructor
    · intro id' k hk
      have hne : id' ≠ id := by
        rintro rfl
        simp at hk
      simp only [if_true, Finmap.lookup_erase_ne hne] at hk
      exact hs.mapped id' k hk
    · intro k j hj ht
      have hk := hs.unfinished k j hj ht
      -- the dropped entry belongs to a finished job, so it is not this one
      have hne : j.job.id ≠ id := by
        rintro rfl
        obtain rfl : k = h := Option.some.inj (hk.symm.trans hl)
        rw [hj] at hj₀
        cases hj₀
        exact ht ht₀
      simpa only [if_true, Finmap.lookup_erase_ne hne] using hk
    · exact hs.complete
    · exact fun id' k sd' hv₁ => absurd hv₁ (hnext id' k sd')

theorem keeps_noteCompletion {j j' : TtlJob} {now : Time}
    (hz : ¬ IsZero j.completeTime → j.job.task = some .finished)
    (hn : noteCompletion j now = some j') : Keeps j j' := by
  unfold noteCompletion at hn
  split at hn
  · obtain ⟨done, hd, rfl⟩ := Option.map_eq_some_iff.mp hn
    cases done with
    | true =>
      have ht := Job.isDone_eq_some_true.mp hd
      exact ⟨rfl, fun _ => ht, fun _ => ht⟩
    | false => exact ⟨rfl, id, hz⟩
  · cases hn
    exact ⟨rfl, id, hz⟩

/-- A completed job that a pass has noted as such has finished. -/
theorem finished_of_isCompletedJobExpired {j j' : TtlJob} {now : Time} {ttl : Duration}
    (hk : Keeps j j') (he : isCompletedJobExpired j' now ttl = true) :
    j'.job.task = some .finished := by
  simp only [isCompletedJobExpired, Bool.and_eq_true, decide_eq_true_eq] at he
  exact hk.complete he.1

theorem Tracked.step {s t : Server} {e : Event} (hs : Tracked s) (hok : ExpiredMarksFinished s e)
    (he : s.step e = some t) : Tracked t := by
  cases e with
  | addJob id name now =>
    simp only [Server.step] at he
    split at he
    · cases he
    · next hc =>
      split at he
      · cases he
        exact hs
      · next ha =>
        cases he
        exact hs.addJob (by simpa using hc) ha
  | start h =>
    simp only [Server.step] at he
    split at he
    · next j hj =>
      split at he
      · next ht =>
        cases he
        refine hs.update fun j' hj' => ?_
        obtain rfl : j = j' := Option.some.inj (hj.symm.trans hj')
        refine ⟨rfl, fun hf => by simp [ht] at hf, fun hz => ?_⟩
        have := hs.complete h j hj hz
        simp [ht] at this
      · cases he
    · cases he
  | finish h o =>
    simp only [Server.step] at he
    split at he
    · split at he
      · cases he
        exact hs.update fun j _ => ⟨by simp, by simp, by simp⟩
      · cases he
    · cases he
  | findDeleted id =>
    simp only [Server.step] at he
    split at he
    · cases he
    · split at he
      · cases he
        exact hs
      · cases he
        exact hs.of_eq rfl rfl hs.visiting
  | markDeleted h now =>
    simp only [Server.step] at he
    split at he
    · cases he
      have hu : Tracked (s.update h fun j => { j with deleteTime := now }) :=
        hs.update fun j hj => ⟨rfl, id, hs.complete h j hj⟩
      exact hu.of_eq rfl rfl hu.visiting
    · cases he
  | lockExpired now ttlD ttlC =>
    simp only [Server.step] at he
    split at he
    · cases he
    · cases he
      refine hs.of_eq rfl rfl ?_
      rintro id h sd ⟨c, hc, hv⟩
      cases hc
      simp at hv
  | checkDelete id =>
    simp only [Server.step] at he
    split at he
    · next now ttlD ttlC todo hc =>
      split at he
      · simp only [Option.bind_eq_bind, Option.bind_eq_some_iff] at he
        obtain ⟨h, hl, j, hj, he⟩ := he
        cases he
        refine hs.of_eq rfl rfl ?_
        rintro id' k sd ⟨c, hc', hv⟩
        cases hc'
        simp only [Visit.checkedDelete.injEq, reduceCtorEq, or_false] at hv
        obtain ⟨rfl, rfl, rfl⟩ := hv
        exact ⟨hl, fun hx => ⟨j, hj, hok _ hc h hl j hj hx⟩⟩
      · cases he
    · cases he
  | checkComplete =>
    simp only [Server.step] at he
    split at he
    · next now ttlD ttlC todo id h sd hc =>
      simp only [Option.bind_eq_bind, Option.bind_eq_some_iff] at he
      obtain ⟨j, hj, j', hn, he⟩ := he
      cases he
      have hkeep := keeps_noteCompletion (hs.complete h j hj) hn
      have hkeeps : ∀ i, s.heap[h]? = some i → Keeps i ((fun _ => j') i) := by
        intro i hi
        obtain rfl : j = i := Option.some.inj (hj.symm.trans hi)
        exact hkeep
      have hu := hs.update hkeeps
      refine hu.of_eq rfl rfl ?_
      rintro id' k sd' ⟨c, hc', hv⟩
      cases hc'
      simp only [reduceCtorEq, Visit.checkedComplete.injEq, false_or] at hv
      obtain ⟨rfl, rfl, rfl⟩ := hv
      obtain ⟨hl, hfin⟩ := hs.visiting _ _ sd ⟨_, hc, Or.inl rfl⟩
      refine ⟨hl, fun hx => ?_⟩
      rcases Bool.or_eq_true_iff.mp hx with hsd | hexp
      · exact (hfin hsd).update hkeeps
      · exact ⟨j', by simp [heap_update, hj], finished_of_isCompletedJobExpired hkeep hexp⟩
    · cases he
  | removeExpired =>
    simp only [Server.step] at he
    split at he
    · next hc =>
      cases he
      exact hs.removeExpired hc rfl rfl
    · cases he
  | unlockExpired =>
    simp only [Server.step] at he
    split at he
    · split at he
      · cases he
        refine hs.of_eq rfl rfl ?_
        rintro id h sd ⟨c, hc, -⟩
        simp at hc
      · cases he
    · cases he

section Loss

variable {s t : Server} {id : String} {h : Nat} {j : TtlJob} {c : Cleanup}

/-- Once the loop body has decided against an unfinished job, it can run to the removal. -/
theorem exists_lost_of_visiting {cancelled : Bool} (hc : s.cleanup = some c)
    (hv : c.visit = .checkedDelete id h true) (hj : s.heap[h]? = some j) (hid : j.job.id = id)
    (hz : IsZero j.completeTime) (ht : j.job.task = some (.running cancelled)) :
    ∃ u, run step s [.checkComplete, .removeExpired] = some u ∧ ¬ RunningMapped u := by
  obtain ⟨now, ttlD, ttlC, todo, visit⟩ := c
  obtain rfl : visit = .checkedDelete id h true := hv
  have hn : noteCompletion j now = some j := by
    simp [noteCompletion, hz, Job.isDone, ht]
  refine ⟨{ s.update h (fun _ => j) with
    jobs := s.jobs.erase id
    cleanup := some ⟨now, ttlD, ttlC, todo, .next⟩ }, ?_, fun hm => ?_⟩
  · simp [run, step, hc, hj, hn, update]
  · have hp : InProgress { s.update h (fun _ => j) with
        jobs := s.jobs.erase id
        cleanup := some ⟨now, ttlD, ttlC, todo, .next⟩ } h id :=
      ⟨j, cancelled, by simp [update, hj], hid, ht⟩
    have := hm.1 h id hp
    simp at this

/-- An expired mark on an unfinished job can cost the map that job. -/
theorem exists_lost (hs : Tracked s) (he : s.step (.checkDelete id) = some t)
    (hn : ¬ ExpiredMarksFinished s (.checkDelete id)) :
    ∃ fs u, run step s (.checkDelete id :: fs) = some u ∧ ¬ RunningMapped u := by
  simp only [ExpiredMarksFinished, not_forall] at hn
  obtain ⟨c, hc, h, hl, j, hj, hexp, ht⟩ := hn
  rw [Option.mem_def] at hc hl hj
  have hid : j.job.id = id := by
    obtain ⟨j', hj', hid⟩ := hs.mapped id h hl
    rw [hj] at hj'
    cases hj'
    exact hid
  obtain ⟨now, ttlD, ttlC, todo, visit⟩ := c
  have ht' : t = { s with
      cleanup := some ⟨now, ttlD, ttlC, todo.erase id, .checkedDelete id h true⟩ } := by
    cases visit with
    | next =>
      simp only [step, hc] at he
      split at he
      · simpa [hl, hj, hexp] using he.symm
      · cases he
    | checkedDelete => simp [step, hc] at he
    | checkedComplete => simp [step, hc] at he
  have hz : IsZero j.completeTime := by
    by_contra hz
    exact ht (hs.complete h j hj hz)
  have hjt : t.heap[h]? = some j := by rw [ht', hj]
  have hct : t.cleanup =
      some ⟨now, ttlD, ttlC, todo.erase id, .checkedDelete id h true⟩ := by rw [ht']
  cases htask : j.job.task with
  | none =>
    -- its handler starts the job between the two checks
    have hj' : (t.update h fun j => { j with job := j.job.start }).heap[h]? =
        some { j with job := j.job.start } := by simp [heap_update, hjt]
    obtain ⟨u, hu, hlost⟩ := exists_lost_of_visiting (by exact hct) rfl hj' hid hz rfl
    have hstart : t.step (.start h) =
        some (t.update h fun j => { j with job := j.job.start }) := by
      simp [step, hjt, htask]
    exact ⟨_, u, run_cons.mpr ⟨t, he, run_cons.mpr ⟨_, hstart, hu⟩⟩, hlost⟩
  | some task =>
    cases task with
    | running cancelled =>
      obtain ⟨u, hu, hlost⟩ := exists_lost_of_visiting hct rfl hjt hid hz htask
      exact ⟨_, u, run_cons.mpr ⟨t, he, hu⟩, hlost⟩
    | finished => exact absurd htask ht

end Loss

/--
Runs in which every expired delete mark that a cleanup pass meets sits on a finished job
keep every execution in progress in the map. The condition is exact: where a run breaks it,
some continuation drops a running job.
-/
theorem runningMapped_of_expiredMarksFinished (es : List Event) :
    (Meets step ExpiredMarksFinished NewServer es → Always step RunningMapped NewServer es) ∧
    ∀ s e, Meets step ExpiredMarksFinished NewServer es → run step NewServer es = some s →
      (s.step e).isSome → ¬ ExpiredMarksFinished s e →
      ∃ fs, ¬ Always step RunningMapped NewServer (es ++ e :: fs) := by
  refine ⟨?_, ?_⟩
  · exact always_of_invariant (fun _ _ _ hs hok he => hs.step hok he)
      (fun _ hs => hs.runningMapped) tracked_newServer
  · intro s e hm hr hen hn
    have hs : Tracked s :=
      invariant (fun _ _ _ hs hok he => hs.step hok he) tracked_newServer hm hr
    obtain ⟨t, ht⟩ := Option.isSome_iff_exists.mp hen
    cases e with
    | checkDelete id =>
      obtain ⟨fs, u, hu, hlost⟩ := exists_lost hs ht hn
      exact ⟨fs, fun ha => hlost (ha.last (run_append.mpr ⟨s, hr, hu⟩))⟩
    | _ => exact absurd trivial hn

/--
A data patch that is deleted while it runs: eleven minutes later the pass forgets it, and
the next request under the same ID starts a second execution.
-/
def forgottenPatch : List Event :=
  [.addJob "DatabasePatch_1" "ApplyDataPatch" 1, .start 0,
    .findDeleted "DatabasePatch_1", .markDeleted 0 (1 + minute),
    .lockExpired (1 + 12 * minute) ttlAfterDelete ttlAfterComplete,
    .checkDelete "DatabasePatch_1", .checkComplete, .removeExpired, .unlockExpired,
    .addJob "DatabasePatch_1" "ApplyDataPatch" (1 + 13 * minute), .start 1]

theorem running_job_removed : ¬ Always step RunningMapped NewServer forgottenPatch := by
  intro ha
  obtain ⟨u, hu, h₀, h₁⟩ : ∃ u, run step NewServer forgottenPatch = some u ∧
      u.InProgress 0 "DatabasePatch_1" ∧ u.InProgress 1 "DatabasePatch_1" :=
    ⟨_, rfl, ⟨_, false, rfl, rfl, rfl⟩, ⟨_, false, rfl, rfl, rfl⟩⟩
  exact absurd ((ha.last hu).2 0 1 _ h₀ h₁) (by decide)

/-- The same requests with the patch finished before its mark expires. -/
theorem finished_job_removed :
    Always step RunningMapped NewServer
      [.addJob "DatabasePatch_1" "ApplyDataPatch" 1, .start 0,
        .finish 0 (.returned none none),
        .findDeleted "DatabasePatch_1", .markDeleted 0 (1 + minute),
        .lockExpired (1 + 12 * minute) ttlAfterDelete ttlAfterComplete,
        .checkDelete "DatabasePatch_1", .checkComplete, .removeExpired, .unlockExpired,
        .addJob "DatabasePatch_1" "ApplyDataPatch" (1 + 13 * minute), .start 1] :=
  (runningMapped_of_expiredMarksFinished _).1 (by decide)

end ElCarro.Lro.Server
