import Mathlib.Data.List.Basic
import ElCarro.Cron.Reconcile

/-! # Times of a schedule

The documentation of the cron library promises that `Next` returns a time after
the given one, or the zero time when it finds none within its horizon. The loop
of `getScheduleTimes` does not end once it meets the zero time, so the unmet
times of a call that returns are all after its starting point, in order.
-/

namespace ElCarro.Cron

open GoTime K8s

/-- What the cron library documents about the `Next` of a schedule. -/
structure NextLaws (next : Time → Time) : Prop where
  ahead : ∀ t, next t = 0 ∨ t < next t
  /-- A time that was found is still found from any instant before it. -/
  found : ∀ t u, 0 ≤ u → t ≤ u → u < next t → next u ≠ 0

/-- Every schedule that the library parses has a documented `Next`. -/
def Libs.Documented (lib : Libs) : Prop :=
  ∀ schedule next, lib.parseStandard schedule = .ok next ∨ lib.parse schedule = .ok next →
    NextLaws next

section Unmet

variable {next : Time → Time} {now t u : Time} {fuel : Nat} {times : List Time}

theorem NextLaws.le_of_lost (hn : NextLaws next) (hu : 0 ≤ u) (hz : next u = 0) (ht : t ≤ u) :
    next t ≤ u := by
  rcases hn.ahead t with h | h
  · rwa [h]
  · by_contra hgt
    exact hn.found t u hu ht (lt_of_not_ge hgt) hz

/-- Below an instant from which no time is found, the loop never gets past it. -/
theorem unmetTimes_stuck (hn : NextLaws next) (hu : 0 ≤ u) (hlt : u < now) (hz : next u = 0)
    (ht : t ≤ u) : unmetTimes next now fuel t = none := by
  induction fuel generalizing t with
  | zero => rfl
  | succ fuel ih =>
    rw [unmetTimes, if_pos (lt_of_le_of_lt ht hlt), ih (hn.le_of_lost hu hz ht)]
    rfl

/-- The times that the loop collects, each after the one before. -/
theorem unmetTimes_ascending (hn : NextLaws next) (hu : 0 ≤ u) (hnow : u < now)
    (h : unmetTimes next now fuel (next u) = some times) :
    times.Pairwise (· < ·) ∧ ∀ v ∈ times, u < v ∧ v < now := by
  induction fuel generalizing u times with
  | zero => cases h
  | succ fuel ih =>
    rw [unmetTimes] at h
    split at h
    · next hlt =>
      obtain ⟨rest, hrest, rfl⟩ := Option.map_eq_some_iff.mp h
      have hpos : u < next u := by
        rcases hn.ahead u with hz | hpos
        · have hle : next (next u) ≤ u := hn.le_of_lost hu hz (hn.le_of_lost hu hz le_rfl)
          rw [unmetTimes_stuck hn hu hnow hz hle] at hrest
          cases hrest
        · exact hpos
      obtain ⟨hpair, hall⟩ := ih (hu.trans hpos.le) hlt hrest
      constructor
      · exact List.pairwise_cons.mpr ⟨fun v hv => (hall v hv).1, hpair⟩
      · intro v hv
        rcases List.mem_cons.mp hv with rfl | hv
        · exact ⟨hpos, hlt⟩
        · exact ⟨hpos.trans (hall v hv).1, (hall v hv).2⟩
    · obtain rfl : [] = times := Option.some.inj h
      simp

end Unmet

section ScheduleTimes

variable {lib : Libs} {ca : CronAnything} {now nextScheduleTime : Time} {fuel : Nat}
  {unmet : List Time}

theorem getScheduleTimes_eq_ok
    (h : getScheduleTimes lib ca now fuel = some (.ok (unmet, nextScheduleTime))) :
    ∃ next, (lib.parseStandard ca.spec.schedule = .ok next ∨
        lib.parse ca.spec.schedule = .ok next) ∧
      unmetTimes next now fuel (next (ca.status.lastScheduleTime.getD ca.creationTimestamp)) =
        some unmet ∧ nextScheduleTime = next now := by
  have key : ∀ next : Time → Time,
      (unmetTimes next now fuel
          (next (ca.status.lastScheduleTime.getD ca.creationTimestamp))).map
        (fun times => (Except.ok (times, next now) : Except String (List Time × Time))) =
        some (.ok (unmet, nextScheduleTime)) →
      unmetTimes next now fuel (next (ca.status.lastScheduleTime.getD ca.creationTimestamp)) =
        some unmet ∧ nextScheduleTime = next now := by
    intro next hmap
    obtain ⟨times, htimes, heq⟩ := Option.map_eq_some_iff.mp hmap
    obtain ⟨rfl, rfl⟩ := Prod.mk.inj (Except.ok.inj heq)
    exact ⟨htimes, rfl⟩
  unfold getScheduleTimes at h
  cases hstd : lib.parseStandard ca.spec.schedule with
  | ok next =>
    simp only [hstd] at h
    exact ⟨next, Or.inl rfl, key next h⟩
  | error err =>
    cases hfull : lib.parse ca.spec.schedule with
    | ok next =>
      simp only [hstd, hfull] at h
      exact ⟨next, Or.inr rfl, key next h⟩
    | error err' => simp [hstd, hfull] at h

theorem getScheduleTimes_next (hl : lib.Documented)
    (h : getScheduleTimes lib ca now fuel = some (.ok (unmet, nextScheduleTime))) :
    nextScheduleTime = 0 ∨ now < nextScheduleTime := by
  obtain ⟨next, hp, -, rfl⟩ := getScheduleTimes_eq_ok h
  exact (hl _ next hp).ahead now

/-- The unmet times come after the last schedule time, in order. -/
theorem getScheduleTimes_unmet (hl : lib.Documented)
    (hstart : 0 ≤ ca.status.lastScheduleTime.getD ca.creationTimestamp)
    (hnow : ca.status.lastScheduleTime.getD ca.creationTimestamp < now)
    (h : getScheduleTimes lib ca now fuel = some (.ok (unmet, nextScheduleTime))) :
    unmet.Pairwise (· < ·) ∧
      ∀ t ∈ unmet, ca.status.lastScheduleTime.getD ca.creationTimestamp < t ∧ t < now := by
  obtain ⟨next, hp, hunmet, -⟩ := getScheduleTimes_eq_ok h
  exact unmetTimes_ascending (hl _ next hp) hstart hnow hunmet

end ScheduleTimes

end ElCarro.Cron
