import ElCarro.Lro.Server

/-! # Effects of the server's steps

What a single step can do to the job map and to the job objects, for reasoning
about clients that own one operation ID.
-/

namespace ElCarro.Lro.Server

open GoTime

/-- Everything a step can do to the job objects and to the map. -/
inductive Effect (s s' : Server) : Event → Prop where
  | added {id name : String} {now : Time} (hid : id ∉ s.jobs)
      (hh : s'.heap = s.heap ++ [⟨Job.new id name, now, 0, 0⟩])
      (hj : s'.jobs = s.jobs.insert id s.heap.length) : Effect s s' (.addJob id name now)
  | started {k : Nat} (hh : s'.heap = s.heap.modify k fun j => { j with job := j.job.start })
      (hj : s'.jobs = s.jobs) : Effect s s' (.start k)
  | finished {k : Nat} {o : Outcome}
      (hh : s'.heap = s.heap.modify k fun j => { j with job := j.job.finish o })
      (hj : s'.jobs = s.jobs) : Effect s s' (.finish k o)
  /-- The times of a job object change, not the job. -/
  | touched {e : Event} {k : Nat} {f : TtlJob → TtlJob}
      (hf : ∀ j : TtlJob, s.heap[k]? = some j → (f j).job = j.job)
      (hh : s'.heap = s.heap.modify k f) (hj : s'.jobs = s.jobs) : Effect s s' e
  | removed {e : Event} {id : String} (hh : s'.heap = s.heap) (hj : s'.jobs = s.jobs.erase id) :
      Effect s s' e
  | none {e : Event} (hh : s'.heap = s.heap) (hj : s'.jobs = s.jobs) : Effect s s' e

variable {s s' : Server} {e : Event}

theorem effect_of_step (h : s.step e = some s') : Effect s s' e := by
  cases e with
  | addJob id name now =>
    simp only [step] at h
    split at h
    · cases h
    · by_cases hid : id ∈ s.jobs
      · simp only [Server.addJob, if_pos hid] at h
        obtain rfl := Option.some.inj h
        exact .none rfl rfl
      · simp only [Server.addJob, if_neg hid] at h
        obtain rfl := Option.some.inj h
        exact .added hid rfl rfl
  | start k =>
    simp only [step] at h
    split at h
    · split at h
      · obtain rfl := Option.some.inj h
        exact .started rfl rfl
      · cases h
    · cases h
  | finish k o =>
    simp only [step] at h
    split at h
    · split at h
      · obtain rfl := Option.some.inj h
        exact .finished rfl rfl
      · cases h
    · cases h
  | findDeleted id =>
    simp only [step] at h
    split at h
    · cases h
    · split at h
      all_goals
        obtain rfl := Option.some.inj h
        exact .none rfl rfl
  | markDeleted k now =>
    simp only [step] at h
    split at h
    · obtain rfl := Option.some.inj h
      have hf : ∀ j : TtlJob, s.heap[k]? = some j →
          ({ j with deleteTime := now } : TtlJob).job = j.job := fun _ _ => rfl
      exact .touched hf rfl rfl
    · cases h
  | lockExpired now ttlD ttlC =>
    simp only [step] at h
    split at h
    · cases h
    · obtain rfl := Option.some.inj h
      exact .none rfl rfl
  | checkDelete id =>
    simp only [step] at h
    split at h
    · split at h
      · obtain ⟨k, -, h⟩ := Option.bind_eq_some_iff.mp h
        obtain ⟨j, -, h⟩ := Option.bind_eq_some_iff.mp h
        obtain rfl := Option.some.inj h
        exact .none rfl rfl
      · cases h
    · cases h
  | checkComplete =>
    simp only [step] at h
    split at h
    · next k shouldDelete _ =>
      obtain ⟨j, hj, h⟩ := Option.bind_eq_some_iff.mp h
      obtain ⟨j', hj', h⟩ := Option.bind_eq_some_iff.mp h
      obtain rfl := Option.some.inj h
      have hf : ∀ i : TtlJob, s.heap[k]? = some i → ((fun _ => j') i : TtlJob).job = i.job := by
        intro i hi
        obtain rfl : j = i := Option.some.inj (hj.symm.trans hi)
        unfold noteCompletion at hj'
        split at hj'
        · obtain ⟨done, -, rfl⟩ := Option.map_eq_some_iff.mp hj'
          split <;> rfl
        · rw [Option.some.inj hj']
      exact .touched hf rfl rfl
    · cases h
  | removeExpired =>
    simp only [step] at h
    split at h
    · next id _ shouldDelete _ =>
      obtain rfl := Option.some.inj h
      cases shouldDelete with
      | true => exact .removed rfl rfl
      | false => exact .none rfl rfl
    · cases h
  | unlockExpired =>
    simp only [step] at h
    split at h
    · split at h
      · obtain rfl := Option.some.inj h
        exact .none rfl rfl
      · cases h
    · cases h

/-- A step that adds no job under the ID leaves the entry of the ID, or drops it. -/
theorem lookup_of_step {id : String} {k : Nat} (h : s.step e = some s')
    (hid : ∀ name now, e ≠ .addJob id name now) (hk : s'.jobs.lookup id = some k) :
    s.jobs.lookup id = some k := by
  cases effect_of_step h with
  | @added id' name now _ _ hj =>
    have hne : id ≠ id' := by
      rintro rfl
      exact hid name now rfl
    rwa [hj, Finmap.lookup_insert_of_ne _ hne] at hk
  | started _ hj => rwa [hj] at hk
  | finished _ hj => rwa [hj] at hk
  | touched _ _ hj => rwa [hj] at hk
  | @removed _ id' _ hj =>
    by_cases hne : id = id'
    · subst hne
      rw [hj, Finmap.lookup_erase] at hk
      cases hk
    · rwa [hj, Finmap.lookup_erase_ne hne] at hk
  | none _ hj => rwa [hj] at hk

theorem getElem?_modify_eq_some {k i : Nat} {f : TtlJob → TtlJob} {l : List TtlJob} {j' : TtlJob}
    (h : (l.modify i f)[k]? = some j') :
    ∃ j, l[k]? = some j ∧ (i = k ∧ j' = f j ∨ j' = j) := by
  rw [List.getElem?_modify] at h
  obtain ⟨j, hj, rfl⟩ := Option.map_eq_some_iff.mp h
  refine ⟨j, hj, ?_⟩
  split
  · next hik => exact .inl ⟨hik, rfl⟩
  · exact .inr rfl

/-- A job that is successful after a step was so before, unless the step is its end. -/
theorem succeeded_of_step {k : Nat} {j' : TtlJob} (h : s.step e = some s')
    (hk : s'.heap[k]? = some j') (hs : j'.job.Succeeded) :
    (∃ j, s.heap[k]? = some j ∧ j.job.Succeeded) ∨ ∃ o, e = .finish k o := by
  cases effect_of_step h with
  | added _ hh _ =>
    rw [hh, List.getElem?_append] at hk
    split at hk
    · exact .inl ⟨j', hk, hs⟩
    · rw [List.getElem?_singleton] at hk
      split at hk
      · obtain rfl := Option.some.inj hk
        cases hs.1
      · cases hk
  | started hh _ =>
    rw [hh] at hk
    obtain ⟨j, hj, ⟨-, rfl⟩ | rfl⟩ := getElem?_modify_eq_some hk
    · cases hs.1
    · exact .inl ⟨j', hj, hs⟩
  | finished hh _ =>
    rw [hh] at hk
    obtain ⟨j, hj, ⟨rfl, -⟩ | rfl⟩ := getElem?_modify_eq_some hk
    · exact .inr ⟨_, rfl⟩
    · exact .inl ⟨j', hj, hs⟩
  | touched hf hh _ =>
    rw [hh] at hk
    obtain ⟨j, hj, ⟨rfl, rfl⟩ | rfl⟩ := getElem?_modify_eq_some hk
    · rw [hf j hj] at hs
      exact .inl ⟨j, hj, hs⟩
    · exact .inl ⟨j', hj, hs⟩
  | removed hh _ =>
    rw [hh] at hk
    exact .inl ⟨j', hk, hs⟩
  | none hh _ =>
    rw [hh] at hk
    exact .inl ⟨j', hk, hs⟩

end ElCarro.Lro.Server
