import Mathlib.Order.Bounds.Basic
import ElCarro.Instance.ParameterTable

/-! # The next maintenance window

`NextWindow` is documented to return the current or the next window. Its loop only
keeps windows that start after the given time, so that it returns the next window
also while another one is open.
-/

namespace ElCarro.Instance.Parameters

open GoTime K8s

/-- A window as `NextWindow` returns it. -/
structure Window where
  start : Time
  duration : Duration
  deriving DecidableEq, Repr

def Window.Contains (w : Window) (t : Time) : Prop := w.start ≤ t ∧ t < w.start + w.duration

instance (w : Window) (t : Time) : Decidable (w.Contains t) :=
  inferInstanceAs (Decidable (w.start ≤ t ∧ t < w.start + w.duration))

/-- The window of a valid time range. -/
def TimeRange.window (tr : TimeRange) : Option Window :=
  match tr.start, tr.duration with
  | some start, some duration => some ⟨rfc3339Copy start, duration⟩
  | _, _ => none

/-- `NoFutureWindows`. -/
def noFutureWindows : String := "no future windows"

/-- The body of the loop of `NextWindow`, with the window found so far. -/
def nextWindowVisit (t : Time) (min : Option Window) (tr : TimeRange) : Option Window :=
  match tr.start, tr.duration with
  | some start, some duration =>
    let trStart := rfc3339Copy start
    if t < trStart then
      match min with
      | none => some ⟨trStart, duration⟩
      | some m => if trStart < m.start then some ⟨trStart, duration⟩ else some m
    else min
  | _, _ => min

def nextWindow (timeRanges : List TimeRange) (t : Time) : Except String Window :=
  match timeRanges.foldl (nextWindowVisit t) none with
  | some w => .ok w
  | none => .error noFutureWindows

/-- The windows that start after the time. -/
def futureWindows (timeRanges : List TimeRange) (t : Time) : List Window :=
  (timeRanges.filterMap TimeRange.window).filter fun w => t < w.start

variable {timeRanges : List TimeRange} {t : Time} {w : Window}

theorem mem_futureWindows : w ∈ futureWindows timeRanges t ↔
    (∃ tr ∈ timeRanges, tr.window = some w) ∧ t < w.start := by
  simp [futureWindows]

theorem timeRangeInRange_iff {tr : TimeRange} :
    timeRangeInRange tr t = true ↔ ∃ w, tr.window = some w ∧ w.Contains t := by
  obtain ⟨_ | start, _ | duration⟩ := tr <;>
    simp [timeRangeInRange, TimeRange.window, Window.Contains]

theorem inRange_iff : inRange (some timeRanges) t = true ↔
    ∃ tr ∈ timeRanges, ∃ w, tr.window = some w ∧ w.Contains t := by
  simp only [inRange, Option.getD_some, List.any_eq_true, timeRangeInRange_iff]

/-- One visit keeps the earlier one of the two windows. -/
theorem nextWindowVisit_cases (t : Time) (min : Option Window) (tr : TimeRange) :
    (nextWindowVisit t min tr = min ∧
      ∀ v, tr.window = some v → t < v.start → ∃ m, min = some m ∧ m.start ≤ v.start) ∨
    ∃ v, tr.window = some v ∧ t < v.start ∧ nextWindowVisit t min tr = some v ∧
      ∀ m, min = some m → v.start < m.start := by
  obtain ⟨_ | start, _ | duration⟩ := tr
  · exact .inl ⟨rfl, by simp [TimeRange.window]⟩
  · exact .inl ⟨rfl, by simp [TimeRange.window]⟩
  · exact .inl ⟨rfl, by simp [TimeRange.window]⟩
  by_cases ht : t < rfc3339Copy start
  · cases min with
    | none => exact .inr ⟨⟨rfc3339Copy start, duration⟩, rfl, ht, by simp [nextWindowVisit, ht]⟩
    | some m =>
      by_cases hm : rfc3339Copy start < m.start
      · refine .inr ⟨⟨rfc3339Copy start, duration⟩, rfl, ht, ?_⟩
        simp [nextWindowVisit, ht, hm]
      · refine .inl ⟨by simp [nextWindowVisit, ht, hm], ?_⟩
        rintro v ⟨⟩ -
        exact ⟨m, rfl, not_lt.mp hm⟩
  · refine .inl ⟨by simp [nextWindowVisit, ht], ?_⟩
    rintro v ⟨⟩ hv
    exact absurd hv ht

/-- What the loop of `NextWindow` has when it is over. -/
theorem foldl_nextWindowVisit (t : Time) (trs : List TimeRange) (min : Option Window) :
    (∀ v, trs.foldl (nextWindowVisit t) min = some v →
      (min = some v ∨ v ∈ futureWindows trs t) ∧
      (∀ m, min = some m → v.start ≤ m.start) ∧ ∀ u ∈ futureWindows trs t, v.start ≤ u.start) ∧
    (trs.foldl (nextWindowVisit t) min = none → min = none ∧ futureWindows trs t = []) := by
  induction trs generalizing min with
  | nil => exact ⟨fun v hv => by simp_all [futureWindows], fun hn => ⟨hn, rfl⟩⟩
  | cons tr trs ih =>
    obtain ⟨ihsome, ihnone⟩ := ih (nextWindowVisit t min tr)
    have hcons : ∀ u, u ∈ futureWindows (tr :: trs) t ↔
        (tr.window = some u ∧ t < u.start) ∨ u ∈ futureWindows trs t := by
      intro u
      simp only [mem_futureWindows, List.mem_cons, exists_eq_or_imp]
      tauto
    rw [List.foldl_cons]
    rcases nextWindowVisit_cases t min tr with ⟨hkept, hlater⟩ | ⟨u, hu, htu, hfound, hearlier⟩
    · rw [hkept] at ihsome ihnone ⊢
      constructor
      · intro v hv
        obtain ⟨hfrom, hmin, hall⟩ := ihsome v hv
        refine ⟨hfrom.imp_right fun h => (hcons v).mpr (.inr h), hmin, fun u hu => ?_⟩
        rcases (hcons u).mp hu with ⟨hw, htu⟩ | hu
        · obtain ⟨m, hm, hle⟩ := hlater u hw htu
          exact (hmin m hm).trans hle
        · exact hall u hu
      · intro hn
        obtain ⟨rfl, hnil⟩ := ihnone hn
        refine ⟨rfl, List.eq_nil_iff_forall_not_mem.mpr fun u hu => ?_⟩
        rcases (hcons u).mp hu with ⟨hw, htu⟩ | hu
        · obtain ⟨m, hm, -⟩ := hlater u hw htu
          cases hm
        · simp [hnil] at hu
    · rw [hfound] at ihsome ihnone ⊢
      constructor
      · intro v hv
        obtain ⟨hfrom, hmin, hall⟩ := ihsome v hv
        have hvu : v.start ≤ u.start := hmin u rfl
        refine ⟨.inr ((hcons v).mpr ?_), fun m hm => hvu.trans (hearlier m hm).le, fun x hx => ?_⟩
        · rcases hfrom with heq | hv
          · obtain rfl := Option.some.inj heq
            exact .inl ⟨hu, htu⟩
          · exact .inr hv
        · rcases (hcons x).mp hx with ⟨hw, -⟩ | hx
          · obtain rfl := Option.some.inj (hu.symm.trans hw)
            exact hvu
          · exact hall x hx
      · intro hn
        cases (ihnone hn).1

theorem nextWindow_eq_ok (h : nextWindow timeRanges t = .ok w) :
    w ∈ futureWindows timeRanges t ∧ ∀ u ∈ futureWindows timeRanges t, w.start ≤ u.start := by
  have hfold : timeRanges.foldl (nextWindowVisit t) none = some w := by
    unfold nextWindow at h
    split at h
    · next v hv => rw [hv, Except.ok.inj h]
    · cases h
  obtain ⟨hfrom, -, hall⟩ := (foldl_nextWindowVisit t timeRanges none).1 w hfold
  exact ⟨hfrom.resolve_left (by simp), hall⟩

theorem nextWindow_eq_error_iff :
    nextWindow timeRanges t = .error noFutureWindows ↔ futureWindows timeRanges t = [] := by
  constructor
  · intro h
    have hfold : timeRanges.foldl (nextWindowVisit t) none = none := by
      unfold nextWindow at h
      split at h
      · cases h
      · next hn => exact hn
    exact ((foldl_nextWindowVisit t timeRanges none).2 hfold).2
  · intro h
    cases hr : nextWindow timeRanges t with
    | ok v => exact absurd (nextWindow_eq_ok hr).1 (by simp [h])
    | error e =>
      unfold nextWindow at hr
      split at hr
      · cases hr
      · exact hr.symm

/--
What `NextWindow` is documented to return at a time: a window that is open then, if there
is one, else the one with the earliest start, and an error if there is none either.
-/
structure CurrentOrNext (timeRanges : List TimeRange) (t : Time) (r : Except String Window) :
    Prop where
  given : ∀ w, r = .ok w → ∃ tr ∈ timeRanges, tr.window = some w
  current : (∃ w, r = .ok w ∧ w.Contains t) ↔ inRange (some timeRanges) t = true
  next : inRange (some timeRanges) t = false → ∀ w, r = .ok w →
    IsLeast {start | ∃ u ∈ futureWindows timeRanges t, u.start = start} w.start
  noFuture : r = .error noFutureWindows ↔
    inRange (some timeRanges) t = false ∧ futureWindows timeRanges t = []

/-- The code does so at the times at which no window is open, and at no other. -/
theorem nextWindow_currentOrNext_iff (timeRanges : List TimeRange) (t : Time) :
    CurrentOrNext timeRanges t (nextWindow timeRanges t) ↔
      inRange (some timeRanges) t = false := by
  have hafter : ¬ ∃ w, nextWindow timeRanges t = .ok w ∧ w.Contains t := by
    rintro ⟨w, hw, hle, -⟩
    exact absurd (mem_futureWindows.mp (nextWindow_eq_ok hw).1).2 (not_lt.mpr hle)
  constructor
  · intro h
    by_contra hin
    exact hafter (h.current.mpr (by simpa using hin))
  · intro hin
    constructor
    · intro w hw
      exact (mem_futureWindows.mp (nextWindow_eq_ok hw).1).1
    · simp [hafter, hin]
    · intro _ w hw
      obtain ⟨hmem, hall⟩ := nextWindow_eq_ok hw
      refine ⟨⟨w, hmem, rfl⟩, ?_⟩
      rintro _ ⟨u, hu, rfl⟩
      exact hall u hu
    · rw [nextWindow_eq_error_iff]
      simp [hin]

/-- Within the only window, of an hour, no window is reported at all. -/
theorem nextWindow_during_window :
    ¬ CurrentOrNext [⟨some (8 * hour), some hour⟩] (8 * hour + 30 * minute)
      (nextWindow [⟨some (8 * hour), some hour⟩] (8 * hour + 30 * minute)) := by
  intro h
  have hnone : nextWindow [⟨some (8 * hour), some hour⟩] (8 * hour + 30 * minute) =
      .error noFutureWindows := by decide
  have hopen : inRange (some [⟨some (8 * hour), some hour⟩]) (8 * hour + 30 * minute) = true := by
    decide
  have hclosed := (h.noFuture.mp hnone).1
  rw [hopen] at hclosed
  cases hclosed

end ElCarro.Instance.Parameters
