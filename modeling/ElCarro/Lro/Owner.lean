import ElCarro.Lro.Effects
import ElCarro.Lro.JobMap

/-! # Operations that are deleted when they are done

One client owns an operation ID and asks to delete the operation only after it has seen
it done. Whatever other clients do, a cleanup pass then drops the entry of the ID only
for a job that has finished, and a job that succeeded stays what a poll sees until then.
-/

namespace ElCarro.Lro.Server

open GoTime

/-- Requests to delete the operation come when its job has finished. -/
def DeletesDone (id : String) (s : Server) : Event → Prop
  | .findDeleted i => i = id → ∀ h ∈ s.jobs.lookup i, ∀ j ∈ s.heap[h]?, j.job.task = some .finished
  | _ => True

instance (id : String) (s : Server) : (e : Event) → Decidable (DeletesDone id s e)
  | .findDeleted _ => inferInstanceAs (Decidable (_ → _))
  | .addJob _ _ _ | .start _ | .finish _ _ | .markDeleted _ _ | .lockExpired _ _ _ | .checkDelete _
  | .checkComplete | .removeExpired | .unlockExpired => isTrue trivial

/-- No unfinished job of the ID is marked, timed or about to be dropped. -/
structure Kept (id : String) (s : Server) : Prop where
  mapped : ∀ i h, s.jobs.lookup i = some h → ∃ j, s.heap[h]? = some j ∧ j.job.id = i
  marked : ∀ h ∈ s.marking, h < s.heap.length
  unfinished : ∀ (h : Nat) (j : TtlJob), s.heap[h]? = some j → j.job.id = id →
    j.job.task ≠ some .finished → s.jobs.lookup id = some h
  done : ∀ (h : Nat) (j : TtlJob), s.heap[h]? = some j → j.job.id = id →
    h ∈ s.marking ∨ ¬ IsZero j.deleteTime ∨ ¬ IsZero j.completeTime → j.job.task = some .finished
  visiting : ∀ h sd, s.Visiting id h sd → s.jobs.lookup id = some h ∧ (sd = true → s.Finished h)

namespace Kept

variable {id : String} {s t : Server} {e : Event}

theorem new : Kept id NewServer where
  mapped := by simp [NewServer]
  marked := by simp [NewServer]
  unfinished := by simp [NewServer]
  done := by simp [NewServer]
  visiting := by simp [NewServer, Visiting]

/-- Steps that leave the heap and the map alone. -/
theorem of_eq (hs : Kept id s) (hheap : t.heap = s.heap) (hjobs : t.jobs = s.jobs)
    (hmarking : ∀ h ∈ t.marking, h < s.heap.length ∧
      ∀ j, s.heap[h]? = some j → j.job.id = id → j.job.task = some .finished)
    (hv : ∀ h sd, t.Visiting id h sd → s.jobs.lookup id = some h ∧ (sd = true → s.Finished h)) :
    Kept id t where
  mapped := by rw [hheap, hjobs]; exact hs.mapped
  marked := by rw [hheap]; exact fun h hh => (hmarking h hh).1
  unfinished := by rw [hheap, hjobs]; exact hs.unfinished
  done := by
    rw [hheap]
    rintro h j hj hid (hmark | htimes)
    · exact (hmarking h hmark).2 j hj hid
    · exact hs.done h j hj hid (.inr htimes)
  visiting := by unfold Finished; rw [hheap, hjobs]; exact hv

/-- What may be done to a job object: a finished one stays so, and only such a one is timed. -/
structure Touches (id : String) (j j' : TtlJob) : Prop where
  id_eq : j'.job.id = j.job.id
  finished : j.job.task = some .finished → j'.job.task = some .finished
  done : j.job.id = id → (¬ IsZero j'.deleteTime ∨ ¬ IsZero j'.completeTime) →
    j'.job.task = some .finished

theorem update {h : Nat} {f : TtlJob → TtlJob} (hs : Kept id s)
    (hf : ∀ j, s.heap[h]? = some j → Touches id j (f j)) : Kept id (s.update h f) := by
  have hback : ∀ {k : Nat} {j' : TtlJob}, (s.update h f).heap[k]? = some j' →
      ∃ j, s.heap[k]? = some j ∧ (j' = j ∨ Touches id j j') := by
    intro k j' hj'
    obtain ⟨j, hj, ⟨rfl, rfl⟩ | rfl⟩ := getElem?_modify_eq_some hj'
    · exact ⟨j, hj, .inr (hf j hj)⟩
    · exact ⟨j', hj, .inl rfl⟩
  have hforth : ∀ {k : Nat} {j : TtlJob}, s.heap[k]? = some j →
      ∃ j', (s.update h f).heap[k]? = some j' ∧ j'.job.id = j.job.id ∧
        (j.job.task = some .finished → j'.job.task = some .finished) := by
    intro k j hj
    refine ⟨if h = k then f j else j, by simp [heap_update, hj], ?_⟩
    split
    · next hk =>
      subst hk
      exact ⟨(hf j hj).id_eq, (hf j hj).finished⟩
    · exact ⟨rfl, fun hfin => hfin⟩
  constructor
  · intro i k hk
    obtain ⟨j, hj, hi⟩ := hs.mapped i k hk
    obtain ⟨j', hj', hid, -⟩ := hforth hj
    exact ⟨j', hj', hid.trans hi⟩
  · intro k hk
    have hlen : (s.update h f).heap.length = s.heap.length := List.length_modify ..
    rw [hlen]
    exact hs.marked k hk
  · intro k j' hj' hid ht
    obtain ⟨j, hj, rfl | htouch⟩ := hback hj'
    · exact hs.unfinished k j' hj hid ht
    · exact hs.unfinished k j hj (htouch.id_eq ▸ hid) fun hfin => ht (htouch.finished hfin)
  · intro k j' hj' hid htimes
    obtain ⟨j, hj, rfl | htouch⟩ := hback hj'
    · exact hs.done k j' hj hid htimes
    · have hid' : j.job.id = id := htouch.id_eq ▸ hid
      rcases htimes with hmark | htimes
      · exact htouch.finished (hs.done k j hj hid' (.inl hmark))
      · exact htouch.done hid' htimes
  · intro k sd hv
    obtain ⟨hl, hfin⟩ := hs.visiting k sd hv
    refine ⟨hl, fun hsd => ?_⟩
    obtain ⟨j, hj, ht⟩ := hfin hsd
    obtain ⟨j', hj', -, hfin'⟩ := hforth hj
    exact ⟨j', hj', hfin' ht⟩

theorem addJob {i name : String} {now : Time} {h : Nat} (hs : Kept id s) (hc : s.cleanup = none)
    (ha : s.addJob i (Job.new i name) now = .ok (h, t)) : Kept id t := by
  unfold Server.addJob at ha
  split at ha
  · cases ha
  · next hi =>
    cases ha
    have hnone : s.jobs.lookup i = none := Finmap.lookup_eq_none.mpr hi
    constructor
    · intro i' k hk
      by_cases hi' : i' = i
      · subst hi'
        rw [Finmap.lookup_insert] at hk
        cases hk
        exact ⟨⟨Job.new i' name, now, 0, 0⟩, by simp, rfl⟩
      · rw [Finmap.lookup_insert_of_ne _ hi'] at hk
        obtain ⟨j, hj, hjid⟩ := hs.mapped i' k hk
        exact ⟨j, getElem?_concat_eq_some.mpr (.inl hj), hjid⟩
    · intro k hk
      rw [List.length_append]
      exact Nat.lt_add_right _ (hs.marked k hk)
    · intro k j hj hid ht
      rcases getElem?_concat_eq_some.mp hj with hj | ⟨rfl, rfl⟩
      · have hl := hs.unfinished k j hj hid ht
        have hne : id ≠ i := by
          rintro rfl
          simp [hnone] at hl
        rwa [Finmap.lookup_insert_of_ne _ hne]
      · obtain rfl : i = id := hid
        exact Finmap.lookup_insert _
    · intro k j hj hid htimes
      rcases getElem?_concat_eq_some.mp hj with hj | ⟨rfl, rfl⟩
      · exact hs.done k j hj hid htimes
      · rcases htimes with hmark | htimes | htimes
        · exact absurd (hs.marked _ hmark) (lt_irrefl _)
        · exact absurd rfl htimes
        · exact absurd rfl htimes
    · rintro k sd ⟨c, hc', -⟩
      simp [hc] at hc'

theorem removeExpired {i : String} {h : Nat} {sd : Bool} {c c' : Cleanup} (hs : Kept id s)
    (hc : s.cleanup = some c) (hv : c.visit = .checkedComplete i h sd) (hv' : c'.visit = .next) :
    Kept id { s with jobs := if sd then s.jobs.erase i else s.jobs, cleanup := some c' } := by
  have hnext : ∀ k sd', ¬ Visiting
      { s with jobs := if sd then s.jobs.erase i else s.jobs, cleanup := some c' } id k sd' := by
    rintro k sd' ⟨c₁, hc₁, hv₁⟩
    obtain rfl : c' = c₁ := Option.some.inj hc₁
    simp [hv'] at hv₁
  constructor
  · intro i' k hk
    cases sd with
    | false => exact hs.mapped i' k hk
    | true =>
      have hne : i' ≠ i := by
        rintro rfl
        simp at hk
      simp only [if_true, Finmap.lookup_erase_ne hne] at hk
      exact hs.mapped i' k hk
  · exact hs.marked
  · intro k j hj hid ht
    have hk := hs.unfinished k j hj hid ht
    cases sd with
    | false => exact hk
    | true =>
      -- the dropped entry belongs to a finished job, so it is not this one
      have hne : id ≠ i := by
        rintro rfl
        obtain ⟨hl, hfin⟩ := hs.visiting h true ⟨c, hc, .inr hv⟩
        obtain ⟨j₀, hj₀, ht₀⟩ := hfin rfl
        obtain rfl : k = h := Option.some.inj (hk.symm.trans hl)
        rw [hj] at hj₀
        cases hj₀
        exact ht ht₀
      simpa only [if_true, Finmap.lookup_erase_ne hne] using hk
  · exact hs.done
  · exact fun k sd' hv₁ => absurd hv₁ (hnext k sd')

theorem marking_ok (hs : Kept id s) : ∀ h ∈ s.marking, h < s.heap.length ∧
    ∀ j, s.heap[h]? = some j → j.job.id = id → j.job.task = some .finished :=
  fun h hh => ⟨hs.marked h hh, fun j hj hid => hs.done h j hj hid (.inl hh)⟩

theorem step (hs : Kept id s) (hok : DeletesDone id s e) (he : s.step e = some t) : Kept id t := by
  cases e with
  | addJob i name now =>
    simp only [Server.step] at he
    split at he
    · cases he
    · next hc =>
      split at he
      · cases he
        exact hs
      · next ha =>
        cases he
        exact hs.addJob (by simpa using hc) ha
  | start h =>
    simp only [Server.step] at he
    split at he
    · next j hj =>
      split at he
      · next ht =>
        cases he
        apply hs.update
        intro j' hj'
        obtain rfl : j = j' := Option.some.inj (hj.symm.trans hj')
        refine ⟨rfl, fun hf => by simp [ht] at hf, fun hid htimes => ?_⟩
        have hfin := hs.done h j hj hid (.inr htimes)
        simp [ht] at hfin
      · cases he
    · cases he
  | finish h o =>
    simp only [Server.step] at he
    split at he
    · split at he
      · cases he
        exact hs.update fun j _ => ⟨by simp, by simp, by simp⟩
      · cases he
    · cases he
  | findDeleted i =>
    simp only [Server.step] at he
    split at he
    · cases he
    · split at he
      · cases he
        exact hs
      · next h hvalid =>
        cases he
        have hl : s.jobs.lookup i = some h := by
          unfold validateAndGetOperation at hvalid
          split at hvalid
          · cases hvalid
          · split at hvalid
            · cases hvalid
            · next h' hl =>
              obtain rfl : h' = h := Except.ok.inj hvalid
              exact hl
        obtain ⟨j, hj, hjid⟩ := hs.mapped i h hl
        refine hs.of_eq rfl rfl ?_ hs.visiting
        intro k hk
        rcases List.mem_cons.mp hk with rfl | hk
        · refine ⟨(List.getElem?_eq_some_iff.mp hj).1, fun j' hj' hid => ?_⟩
          obtain rfl : j = j' := Option.some.inj (hj.symm.trans hj')
          exact hok (hjid.symm.trans hid) k hl j hj
        · exact hs.marking_ok k hk
  | markDeleted h now =>
    simp only [Server.step] at he
    split at he
    · next hmark =>
      cases he
      have hu : Kept id (s.update h fun j => { j with deleteTime := now }) := by
        apply hs.update
        intro j hj
        exact ⟨rfl, fun hfin => hfin, fun hid _ => hs.done h j hj hid (.inl hmark)⟩
      refine hu.of_eq rfl rfl ?_ hu.visiting
      exact fun k hk => hu.marking_ok k (List.mem_of_mem_erase hk)
    · cases he
  | lockExpired now ttlD ttlC =>
    simp only [Server.step] at he
    split at he
    · cases he
    · cases he
      refine hs.of_eq rfl rfl hs.marking_ok ?_
      rintro h sd ⟨c, hc, hv⟩
      cases hc
      simp at hv
  | checkDelete i =>
    simp only [Server.step] at he
    split at he
    · split at he
      · simp only [Option.bind_eq_bind, Option.bind_eq_some_iff] at he
        obtain ⟨h, hl, j, hj, he⟩ := he
        cases he
        refine hs.of_eq rfl rfl hs.marking_ok ?_
        rintro k sd ⟨c, hc', hv⟩
        cases hc'
        simp only [Visit.checkedDelete.injEq, reduceCtorEq, or_false] at hv
        obtain ⟨rfl, rfl, rfl⟩ := hv
        refine ⟨hl, fun hx => ⟨j, hj, ?_⟩⟩
        obtain ⟨j₀, hj₀, hjid⟩ := hs.mapped i h hl
        obtain rfl : j = j₀ := Option.some.inj (hj.symm.trans hj₀)
        simp only [isDeletedJobExpired, Bool.and_eq_true, decide_eq_true_eq] at hx
        exact hs.done h j hj hjid (.inr (.inl hx.1))
      · cases he
    · cases he
  | checkComplete =>
    simp only [Server.step] at he
    split at he
    · next now ttlD ttlC todo i h sd hc =>
      simp only [Option.bind_eq_bind, Option.bind_eq_some_iff] at he
      obtain ⟨j, hj, j', hn, he⟩ := he
      cases he
      have htouch : Touches id j j' ∧ (¬ IsZero j'.completeTime → j.job.id = id →
          j'.job.task = some .finished) := by
        unfold noteCompletion at hn
        split at hn
        · obtain ⟨done, hd, rfl⟩ := Option.map_eq_some_iff.mp hn
          cases done with
          | true =>
            have ht := Job.isDone_eq_some_true.mp hd
            exact ⟨⟨rfl, fun _ => ht, fun _ _ => ht⟩, fun _ _ => ht⟩
          | false =>
            exact ⟨⟨rfl, fun hfin => hfin, fun hid htimes => hs.done h j hj hid (.inr htimes)⟩,
              fun hz hid => hs.done h j hj hid (.inr (.inr hz))⟩
        · cases hn
          exact ⟨⟨rfl, fun hfin => hfin, fun hid htimes => hs.done h j hj hid (.inr htimes)⟩,
            fun hz hid => hs.done h j hj hid (.inr (.inr hz))⟩
      have htouches : ∀ k, s.heap[h]? = some k → Touches id k ((fun _ => j') k) := by
        intro k hk
        obtain rfl : j = k := Option.some.inj (hj.symm.trans hk)
        exact htouch.1
      have hu := hs.update htouches
      refine hu.of_eq rfl rfl hu.marking_ok ?_
      rintro k sd' ⟨c, hc', hv⟩
      cases hc'
      simp only [reduceCtorEq, Visit.checkedComplete.injEq, false_or] at hv
      obtain ⟨rfl, rfl, rfl⟩ := hv
      obtain ⟨hl, hfin⟩ := hs.visiting h sd ⟨_, hc, .inl rfl⟩
      refine ⟨hl, fun hx => ⟨j', by simp [heap_update, hj], ?_⟩⟩
      obtain ⟨j₀, hj₀, hjid⟩ := hs.mapped i h hl
      obtain rfl : j = j₀ := Option.some.inj (hj.symm.trans hj₀)
      rcases Bool.or_eq_true_iff.mp hx with hsd | hexp
      · obtain ⟨j₁, hj₁, ht⟩ := hfin hsd
        obtain rfl : j = j₁ := Option.some.inj (hj.symm.trans hj₁)
        exact htouch.1.finished ht
      · simp only [isCompletedJobExpired, Bool.and_eq_true, decide_eq_true_eq] at hexp
        exact htouch.2 hexp.1 hjid
    · cases he
  | removeExpired =>
    simp only [Server.step] at he
    split at he
    · next hc =>
      cases he
      exact hs.removeExpired hc rfl rfl
    · cases he
  | unlockExpired =>
    simp only [Server.step] at he
    split at he
    · split at he
      · cases he
        refine hs.of_eq rfl rfl hs.marking_ok ?_
        rintro h sd ⟨c, hc, -⟩
        simp at hc
      · cases he
    · cases he

end Kept

section Entry

variable {id : String} {s t : Server} {e : Event} {h : Nat} {j : TtlJob}

/-- The map keeps the entry of an ID, or drops it. -/
theorem lookup_kept_or_dropped (he : s.step e = some t) (hl : s.jobs.lookup id = some h) :
    t.jobs.lookup id = some h ∨ t.jobs.lookup id = none := by
  cases effect_of_step he with
  | @added i _ _ hi _ hj =>
    have hne : id ≠ i := by
      rintro rfl
      rw [Finmap.lookup_eq_none.mpr hi] at hl
      cases hl
    rw [hj, Finmap.lookup_insert_of_ne _ hne]
    exact .inl hl
  | started _ hj => exact .inl (hj ▸ hl)
  | finished _ hj => exact .inl (hj ▸ hl)
  | touched _ _ hj => exact .inl (hj ▸ hl)
  | @removed _ i _ hj =>
    by_cases hne : id = i
    · subst hne
      rw [hj, Finmap.lookup_erase]
      exact .inr rfl
    · rw [hj, Finmap.lookup_erase_ne hne]
      exact .inl hl
  | none _ hj => exact .inl (hj ▸ hl)

/-- What comes of a job object in one step, and that it keeps its ID. -/
theorem job_of_step {k : Nat} {j' : TtlJob} (he : s.step e = some t) (hk : t.heap[k]? = some j') :
    (∃ j, s.heap[k]? = some j ∧ j'.job = j.job) ∨
      (∃ i name now, e = .addJob i name now ∧ k = s.heap.length ∧ j'.job = Job.new i name) ∨
      ∃ j, s.heap[k]? = some j ∧ j.job.task ≠ some .finished ∧
        (e = .start k ∧ j'.job = j.job.start ∨ ∃ o, e = .finish k o ∧ j'.job = j.job.finish o) := by
  cases e with
  | start i =>
    simp only [Server.step] at he
    split at he
    · next j₀ hj₀ =>
      split at he
      · next ht =>
        cases he
        obtain ⟨j, hj, ⟨rfl, rfl⟩ | rfl⟩ := getElem?_modify_eq_some hk
        · obtain rfl : j₀ = j := Option.some.inj (hj₀.symm.trans hj)
          exact .inr (.inr ⟨j₀, hj, by simp [ht], .inl ⟨rfl, rfl⟩⟩)
        · exact .inl ⟨j', hj, rfl⟩
      · cases he
    · cases he
  | finish i o =>
    simp only [Server.step] at he
    split at he
    · next j₀ hj₀ =>
      split at he
      · next ht =>
        cases he
        obtain ⟨j, hj, ⟨rfl, rfl⟩ | rfl⟩ := getElem?_modify_eq_some hk
        · obtain rfl : j₀ = j := Option.some.inj (hj₀.symm.trans hj)
          exact .inr (.inr ⟨j₀, hj, by simp [ht], .inr ⟨o, rfl, rfl⟩⟩)
        · exact .inl ⟨j', hj, rfl⟩
      · cases he
    · cases he
  | addJob i name now =>
    cases effect_of_step he with
    | added _ hh _ =>
      rw [hh] at hk
      rcases getElem?_concat_eq_some.mp hk with hk | ⟨hlen, rfl⟩
      · exact .inl ⟨j', hk, rfl⟩
      · exact .inr (.inl ⟨i, name, now, rfl, hlen, rfl⟩)
    | touched hf hh _ =>
      rw [hh] at hk
      obtain ⟨j, hj, ⟨rfl, rfl⟩ | rfl⟩ := getElem?_modify_eq_some hk
      · exact .inl ⟨j, hj, hf j hj⟩
      · exact .inl ⟨j', hj, rfl⟩
    | removed hh _ => exact .inl ⟨j', hh ▸ hk, rfl⟩
    | none hh _ => exact .inl ⟨j', hh ▸ hk, rfl⟩
  | findDeleted _ | markDeleted _ _ | lockExpired _ _ _ | checkDelete _ | checkComplete
  | removeExpired | unlockExpired =>
    cases effect_of_step he with
    | touched hf hh _ =>
      rw [hh] at hk
      obtain ⟨j, hj, ⟨rfl, rfl⟩ | rfl⟩ := getElem?_modify_eq_some hk
      · exact .inl ⟨j, hj, hf j hj⟩
      · exact .inl ⟨j', hj, rfl⟩
    | removed hh _ => exact .inl ⟨j', hh ▸ hk, rfl⟩
    | none hh _ => exact .inl ⟨j', hh ▸ hk, rfl⟩

theorem heap_length_le (he : s.step e = some t) : s.heap.length ≤ t.heap.length := by
  cases effect_of_step he with
  | added _ hh _ =>
    rw [hh, List.length_append]
    exact Nat.le_add_right _ _
  | started hh _ => rw [hh, List.length_modify]
  | finished hh _ => rw [hh, List.length_modify]
  | touched _ hh _ => rw [hh, List.length_modify]
  | removed hh _ => rw [hh]
  | none hh _ => rw [hh]

/-- A job that has finished stays as it is. -/
theorem finished_stays (he : s.step e = some t) (hj : s.heap[h]? = some j)
    (hfin : j.job.task = some .finished) : ∃ j', t.heap[h]? = some j' ∧ j'.job = j.job := by
  have hlt : h < s.heap.length := (List.getElem?_eq_some_iff.mp hj).1
  have hlt' : h < t.heap.length := hlt.trans_le (heap_length_le he)
  have hj' : t.heap[h]? = some t.heap[h] := List.getElem?_eq_getElem hlt'
  refine ⟨_, hj', ?_⟩
  rcases job_of_step he hj' with ⟨j₀, hj₀, hjob⟩ | ⟨_, _, _, -, rfl, -⟩ | ⟨j₀, hj₀, hnot, -⟩
  · obtain rfl : j = j₀ := Option.some.inj (hj.symm.trans hj₀)
    exact hjob
  · exact absurd hlt (lt_irrefl _)
  · obtain rfl : j = j₀ := Option.some.inj (hj.symm.trans hj₀)
    exact absurd hfin hnot

end Entry

end ElCarro.Lro.Server
