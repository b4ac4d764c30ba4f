import ElCarro.Lro.Requests

/-! # Executions while the map retains an ID

Whatever a cleanup pass drops has been started: the pass asks every entry whether it is
done, and an entry that is not started takes the daemon down there. So a job that is still
to be started is the one that the map has under its ID, and as long as the map retains an
ID, no second job of it is started.
-/

namespace ElCarro.Lro.Server

open GoTime

/-- The loop of a cleanup pass has asked whether this entry is done. -/
def Checked (s : Server) (id : String) (h : Nat) : Prop :=
  ∃ c sd, s.cleanup = some c ∧ c.visit = .checkedComplete id h sd

/-- The map has every job that is not started, under its ID. -/
structure Regular (s : Server) : Prop where
  mapped : ∀ id h, s.jobs.lookup id = some h → ∃ j, s.heap[h]? = some j ∧ j.job.id = id
  unstarted : ∀ (h : Nat) (j : TtlJob), s.heap[h]? = some j → j.job.task = none →
    s.jobs.lookup j.job.id = some h ∧ IsZero j.completeTime
  visiting : ∀ id h sd, s.Visiting id h sd → s.jobs.lookup id = some h
  checked : ∀ id h, s.Checked id h → ∃ j, s.heap[h]? = some j ∧ j.job.task ≠ none

namespace Regular

variable {s t : Server} {e : Event}

theorem new : Regular NewServer where
  mapped := by simp [NewServer]
  unstarted := by simp [NewServer]
  visiting := by simp [NewServer, Visiting]
  checked := by simp [NewServer, Checked]

/-- Steps that leave the heap and the map alone. -/
theorem of_eq (hs : Regular s) (hheap : t.heap = s.heap) (hjobs : t.jobs = s.jobs)
    (hv : ∀ id h sd, t.Visiting id h sd → s.jobs.lookup id = some h)
    (hc : ∀ id h, t.Checked id h → ∃ j, s.heap[h]? = some j ∧ j.job.task ≠ none) :
    Regular t := by
  obtain ⟨hmapped, hunstarted, -, -⟩ := hs
  constructor
  · rwa [hheap, hjobs]
  · rwa [hheap, hjobs]
  · rwa [hjobs]
  · rwa [hheap]

/-- A job object keeps its ID, and until it is started it stays as it was. -/
structure Keeps (j j' : TtlJob) : Prop where
  id_eq : j'.job.id = j.job.id
  task : j'.job.task = none → j.job.task = none ∧ j'.completeTime = j.completeTime

theorem update (hs : Regular s) {k : Nat} {f : TtlJob → TtlJob}
    (hf : ∀ j, s.heap[k]? = some j → Keeps j (f j)) : Regular (s.update k f) := by
  have hforth : ∀ {h : Nat} {j : TtlJob}, s.heap[h]? = some j →
      ∃ j', (s.update k f).heap[h]? = some j' ∧ Keeps j j' := by
    intro h j hj
    refine ⟨if k = h then f j else j, by simp [heap_update, hj], ?_⟩
    split
    · next hk =>
      subst hk
      exact hf j hj
    · exact ⟨rfl, fun ht => ⟨ht, rfl⟩⟩
  constructor
  · intro id h hl
    obtain ⟨j, hj, hid⟩ := hs.mapped id h hl
    obtain ⟨j', hj', hkeep⟩ := hforth hj
    exact ⟨j', hj', hkeep.id_eq.trans hid⟩
  · intro h j' hj' ht
    rw [heap_update] at hj'
    obtain ⟨j, hj, rfl⟩ := Option.map_eq_some_iff.mp hj'
    obtain ⟨i, hi, hkeep⟩ := hforth hj
    have hsame : i = if k = h then f j else j := by
      simpa [heap_update, hj] using hi.symm
    rw [← hsame] at ht ⊢
    rw [hkeep.id_eq, (hkeep.task ht).2]
    exact hs.unstarted h j hj (hkeep.task ht).1
  · exact hs.visiting
  · intro id h hc
    obtain ⟨j, hj, ht⟩ := hs.checked id h hc
    obtain ⟨j', hj', hkeep⟩ := hforth hj
    exact ⟨j', hj', fun hnone => ht (hkeep.task hnone).1⟩

theorem addJob {id name : String} {now : Time} {h : Nat} (hs : Regular s) (hc : s.cleanup = none)
    (ha : s.addJob id (Job.new id name) now = .ok (h, t)) : Regular t := by
  unfold Server.addJob at ha
  split at ha
  · cases ha
  · next hid =>
    cases ha
    have hnone : s.jobs.lookup id = none := Finmap.lookup_eq_none.mpr hid
    constructor
    · intro i k hk
      by_cases hi : i = id
      · subst hi
        rw [Finmap.lookup_insert] at hk
        cases hk
        exact ⟨⟨Job.new i name, now, 0, 0⟩, by simp, rfl⟩
      · rw [Finmap.lookup_insert_of_ne _ hi] at hk
        obtain ⟨j, hj, hjid⟩ := hs.mapped i k hk
        exact ⟨j, getElem?_concat_eq_some.mpr (.inl hj), hjid⟩
    · intro k j hj ht
      rcases getElem?_concat_eq_some.mp hj with hj | ⟨rfl, rfl⟩
      · obtain ⟨hl, hz⟩ := hs.unstarted k j hj ht
        have hne : j.job.id ≠ id := by
          rintro rfl
          simp [hnone] at hl
        exact ⟨by rwa [Finmap.lookup_insert_of_ne _ hne], hz⟩
      · exact ⟨Finmap.lookup_insert _, rfl⟩
    · rintro i k sd ⟨c, hc', -⟩
      simp [hc] at hc'
    · rintro i k ⟨c, sd, hc', -⟩
      simp [hc] at hc'

/-- The entry that a pass drops is the one it has asked. -/
theorem removeExpired {id : String} {h : Nat} {sd : Bool} {c c' : Cleanup} (hs : Regular s)
    (hc : s.cleanup = some c) (hv : c.visit = .checkedComplete id h sd) (hv' : c'.visit = .next) :
    Regular { s with jobs := if sd then s.jobs.erase id else s.jobs, cleanup := some c' } := by
  have hl : s.jobs.lookup id = some h := hs.visiting id h sd ⟨c, hc, .inr hv⟩
  obtain ⟨j₀, hj₀, ht₀⟩ := hs.checked id h ⟨c, sd, hc, hv⟩
  constructor
  · intro i k hk
    cases sd with
    | false => exact hs.mapped i k hk
    | true =>
      have hne : i ≠ id := by
        rintro rfl
        simp at hk
      simp only [if_true, Finmap.lookup_erase_ne hne] at hk
      exact hs.mapped i k hk
  · intro k j hj ht
    obtain ⟨hk, hz⟩ := hs.unstarted k j hj ht
    cases sd with
    | false => exact ⟨hk, hz⟩
    | true =>
      have hne : j.job.id ≠ id := by
        intro heq
        rw [heq] at hk
        obtain rfl : k = h := Option.some.inj (hk.symm.trans hl)
        obtain rfl : j = j₀ := Option.some.inj (hj.symm.trans hj₀)
        exact ht₀ ht
      simpa only [if_true, Finmap.lookup_erase_ne hne] using And.intro hk hz
  · rintro i k sd' ⟨c₁, hc₁, hv₁⟩
    obtain rfl : c' = c₁ := Option.some.inj hc₁
    simp [hv'] at hv₁
  · rintro i k ⟨c₁, sd', hc₁, hv₁⟩
    obtain rfl : c' = c₁ := Option.some.inj hc₁
    simp [hv'] at hv₁

/-- A pass that has noted the completion of a job has read its task. -/
theorem started_of_noteCompletion {j j' : TtlJob} {now : Time} (hn : noteCompletion j now = some j')
    (hz : j.job.task = none → IsZero j.completeTime) : j'.job = j.job ∧ j'.job.task ≠ none := by
  unfold noteCompletion at hn
  split at hn
  · obtain ⟨done, hd, rfl⟩ := Option.map_eq_some_iff.mp hn
    have ht : j.job.task ≠ none := by
      intro hnone
      simp [Job.isDone, hnone] at hd
    split
    · exact ⟨rfl, ht⟩
    · exact ⟨rfl, ht⟩
  · next hnz =>
    obtain rfl := Option.some.inj hn
    exact ⟨rfl, fun hnone => hnz (hz hnone)⟩

theorem step (hs : Regular s) (he : s.step e = some t) : Regular t := by
  cases e with
  | addJob id name now =>
    simp only [Server.step] at he
    split at he
    · cases he
    · next hc =>
      split at he
      · cases he
        exact hs
      · next ha =>
        cases he
        exact hs.addJob (by simpa using hc) ha
  | start k =>
    simp only [Server.step] at he
    split at he
    · split at he
      · cases he
        apply hs.update
        intro j _
        exact ⟨rfl, fun ht => by simp [Job.start] at ht⟩
      · cases he
    · cases he
  | finish k o =>
    simp only [Server.step] at he
    split at he
    · split at he
      · cases he
        apply hs.update
        intro j _
        exact ⟨by simp, fun ht => by simp at ht⟩
      · cases he
    · cases he
  | findDeleted id =>
    simp only [Server.step] at he
    split at he
    · cases he
    · split at he
      · cases he
        exact hs
      · cases he
        exact hs.of_eq rfl rfl hs.visiting hs.checked
  | markDeleted k now =>
    simp only [Server.step] at he
    split at he
    · cases he
      have hu : Regular (s.update k fun j => { j with deleteTime := now }) := by
        apply hs.update
        intro j _
        exact ⟨rfl, fun ht => ⟨ht, rfl⟩⟩
      exact hu.of_eq rfl rfl hu.visiting hu.checked
    · cases he
  | lockExpired now ttlD ttlC =>
    simp only [Server.step] at he
    split at he
    · cases he
    · cases he
      refine hs.of_eq rfl rfl ?_ ?_
      · rintro id h sd ⟨c, hc, hv⟩
        cases hc
        simp at hv
      · rintro id h ⟨c, sd, hc, hv⟩
        cases hc
        cases hv
  | checkDelete i =>
    simp only [Server.step] at he
    split at he
    · split at he
      · simp only [Option.bind_eq_bind, Option.bind_eq_some_iff] at he
        obtain ⟨h, hl, j, hj, he⟩ := he
        cases he
        refine hs.of_eq rfl rfl ?_ ?_
        · rintro id k sd ⟨c, hc, hv⟩
          cases hc
          simp only [Visit.checkedDelete.injEq, reduceCtorEq, or_false] at hv
          obtain ⟨rfl, rfl, -⟩ := hv
          exact hl
        · rintro id k ⟨c, sd, hc, hv⟩
          cases hc
          cases hv
      · cases he
    · cases he
  | checkComplete =>
    simp only [Server.step] at he
    split at he
    · next now ttlD ttlC todo i h sd hc =>
      simp only [Option.bind_eq_bind, Option.bind_eq_some_iff] at he
      obtain ⟨j, hj, j', hn, he⟩ := he
      cases he
      obtain ⟨hjob, ht⟩ := started_of_noteCompletion hn fun ht => (hs.unstarted h j hj ht).2
      have hu : Regular (s.update h fun _ => j') := by
        apply hs.update
        intro k hk
        obtain rfl : j = k := Option.some.inj (hj.symm.trans hk)
        exact ⟨by rw [hjob], fun hnone => absurd hnone ht⟩
      refine hu.of_eq rfl rfl ?_ ?_
      · rintro id k sd' ⟨c, hc', hv⟩
        cases hc'
        simp only [reduceCtorEq, Visit.checkedComplete.injEq, false_or] at hv
        obtain ⟨rfl, rfl, -⟩ := hv
        exact hs.visiting i h sd ⟨_, hc, .inl rfl⟩
      · rintro id k ⟨c, sd', hc', hv⟩
        cases hc'
        obtain ⟨rfl, rfl, -⟩ := Visit.checkedComplete.inj hv
        exact ⟨j', by simp [heap_update, hj], ht⟩
    · cases he
  | removeExpired =>
    simp only [Server.step] at he
    split at he
    · next hc =>
      cases he
      exact hs.removeExpired hc rfl rfl
    · cases he
  | unlockExpired =>
    simp only [Server.step] at he
    split at he
    · split at he
      · cases he
        refine hs.of_eq rfl rfl ?_ ?_
        · rintro id h sd ⟨c, hc, -⟩
          simp at hc
        · rintro id h ⟨c, sd, hc, -⟩
          simp at hc
      · cases he
    · cases he

/-- The job that a step starts is the one that the map has under its ID. -/
theorem lookup_of_start (hs : Regular s) {h : Nat} {j : TtlJob} (he : s.step (.start h) = some t)
    (hj : s.heap[h]? = some j) : s.jobs.lookup j.job.id = some h := by
  have ht : j.job.task = none := by
    by_contra ht
    simp [Server.step, hj, ht] at he
  exact (hs.unstarted h j hj ht).1

end Regular

end ElCarro.Lro.Server
