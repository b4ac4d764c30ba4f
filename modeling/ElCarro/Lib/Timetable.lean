import Mathlib.Logic.Function.Iterate
import Mathlib.Order.Bounds.Defs
import Mathlib.Order.Interval.Finset.Basic

/-! # Timetables and bounded search

A timetable is a set of instants. A search looks for the first of them after a
given instant, but only up to a horizon, and answers with a fixed `lost` instant
when it finds none. Iterating the search passes a bound unless it meets, before
the bound, an instant from which nothing is found.
-/

structure Timetable (T : Type*) [LinearOrder T] where
  fires : Set T
  /-- How far a search from an instant looks. -/
  horizon : T → T
  mono : Monotone horizon

namespace Timetable

variable {T : Type*} [LinearOrder T] {tt : Timetable T} {lost s e t u : T} {next : T → T}

/-- No match within the horizon. -/
def Barren (tt : Timetable T) (t : T) : Prop := ∀ u ∈ tt.fires, t < u → tt.horizon t < u

/-- The first match after an instant, or `lost` if there is none within the horizon. -/
structure IsNext (tt : Timetable T) (lost : T) (next : T → T) : Prop where
  first : ∀ t, ¬ tt.Barren t → IsLeast {u | u ∈ tt.fires ∧ t < u} (next t)
  lost : ∀ t, tt.Barren t → next t = lost

/-- A match is within reach of `s` and of every match between `s` and `e`. -/
def Served (tt : Timetable T) (s e : T) : Prop :=
  ¬ tt.Barren s ∧ ∀ u ∈ tt.fires, s < u → u < e → ¬ tt.Barren u

/-- Every search finds something. -/
def Unfailing (tt : Timetable T) : Prop := ∀ t, ¬ tt.Barren t

theorem Unfailing.served (h : tt.Unfailing) : tt.Served s e := ⟨h s, fun u _ _ _ => h u⟩

/-- Some iterate of the search is not before `e`. -/
def Reaches (next : T → T) (e t : T) : Prop := ∃ n, e ≤ next^[n] t

theorem reaches_of_le (h : e ≤ t) : Reaches next e t := ⟨0, h⟩

theorem reaches_of_next (h : Reaches next e (next t)) : Reaches next e t := by
  obtain ⟨n, hn⟩ := h
  exact ⟨n + 1, hn⟩

theorem IsNext.lt (h : tt.IsNext lost next) (ht : ¬ tt.Barren t) : t < next t :=
  (h.first t ht).1.2

/-- A search never jumps over an instant from which nothing is found. -/
theorem IsNext.next_le_of_barren (h : tt.IsNext lost next) (hu : tt.Barren u) (ht : t ≤ u) :
    next t = lost ∨ next t ≤ u := by
  by_cases hb : tt.Barren t
  · exact Or.inl (h.lost t hb)
  · right
    by_contra hgt
    have hleast := (h.first t hb).2
    -- every match after `t` is past `u`, so `t` would be barren with `u`
    have hpast : ∀ v ∈ tt.fires, t < v → u < v :=
      fun v hv hlt => (lt_of_not_ge hgt).trans_le (hleast ⟨hv, hlt⟩)
    apply hb
    intro v hv hlt
    exact (tt.mono ht).trans_lt (hu v hv (hpast v hv hlt))

section Passing

variable [LocallyFiniteOrder T]

theorem card_lt_of_lt (h : t < u) (hu : t < e) :
    (Finset.Ico u e).card < (Finset.Ico t e).card := by
  apply Finset.card_lt_card
  constructor
  · exact Finset.Ico_subset_Ico_left h.le
  · intro hsub
    have hmem : t ∈ Finset.Ico u e := hsub (Finset.mem_Ico.mpr ⟨le_rfl, hu⟩)
    exact absurd h (not_lt.mpr (Finset.mem_Ico.mp hmem).1)

theorem IsNext.reaches_of_served (h : tt.IsNext lost next) (hs : tt.Served t e) :
    Reaches next e (next t) := by
  -- by induction on the number of instants before the bound
  induction hcard : (Finset.Ico t e).card using Nat.strong_induction_on generalizing t with
  | _ n ih =>
    obtain ⟨⟨hmatch, hlt⟩, -⟩ := h.first t hs.1
    by_cases hle : e ≤ next t
    · exact reaches_of_le hle
    · rw [not_le] at hle
      have hserved : tt.Served (next t) e :=
        ⟨hs.2 _ hmatch hlt hle, fun u hu hut => hs.2 u hu (hlt.trans hut)⟩
      have hless : (Finset.Ico (next t) e).card < n := hcard ▸ card_lt_of_lt hlt (hlt.trans hle)
      exact reaches_of_next (ih _ hless hserved rfl)

/-- If the bound is reached from `lost`, it is reached from everywhere. -/
theorem IsNext.reaches_of_lost (h : tt.IsNext lost next) (hlost : Reaches next e lost) :
    Reaches next e t := by
  induction hcard : (Finset.Ico t e).card using Nat.strong_induction_on generalizing t with
  | _ n ih =>
    by_cases hle : e ≤ t
    · exact reaches_of_le hle
    · apply reaches_of_next
      by_cases hb : tt.Barren t
      · rwa [h.lost t hb]
      · exact ih _ (hcard ▸ card_lt_of_lt (h.lt hb) (not_le.mp hle)) rfl

end Passing

/-- An instant that the search cannot get away from before `e`. -/
def Doomed (tt : Timetable T) (e t : T) : Prop := ∃ u, tt.Barren u ∧ t ≤ u ∧ u < e

theorem doomed_of_not_served (hs : ¬ tt.Served s e) (hse : s < e) : tt.Doomed e s := by
  by_cases hb : tt.Barren s
  · exact ⟨s, hb, le_rfl, hse⟩
  · have hmatch : ∃ u ∈ tt.fires, s < u ∧ u < e ∧ tt.Barren u := by
      by_contra hnone
      apply hs
      refine ⟨hb, fun u hu hsu hue hbu => hnone ⟨u, hu, hsu, hue, hbu⟩⟩
    obtain ⟨u, -, hsu, hue, hbu⟩ := hmatch
    exact ⟨u, hbu, hsu.le, hue⟩

theorem IsNext.doomed_next (h : tt.IsNext lost next) (hlost : tt.Doomed e lost)
    (ht : tt.Doomed e t) : tt.Doomed e (next t) := by
  obtain ⟨u, hu, htu, hue⟩ := ht
  rcases h.next_le_of_barren hu htu with heq | hle
  · rwa [heq]
  · exact ⟨u, hu, hle, hue⟩

theorem IsNext.not_reaches (h : tt.IsNext lost next) (hlost : tt.Doomed e lost)
    (ht : tt.Doomed e t) : ¬ Reaches next e t := by
  rintro ⟨n, hn⟩
  induction n generalizing t with
  | zero =>
    obtain ⟨u, -, htu, hue⟩ := ht
    exact absurd (hn.trans htu) (not_le.mpr hue)
  | succ n ih => exact ih (h.doomed_next hlost ht) hn

/-- When the iterated search from `s` passes the bound. -/
theorem IsNext.reaches_iff [LocallyFiniteOrder T] (h : tt.IsNext lost next) :
    Reaches next e (next s) ↔ e ≤ lost ∨ tt.Served s e ∨ tt.Served lost e := by
  constructor
  · intro hr
    by_contra hnone
    simp only [not_or, not_le] at hnone
    obtain ⟨hlt, hs, hl⟩ := hnone
    have hlost : tt.Doomed e lost := doomed_of_not_served hl hlt
    by_cases hb : tt.Barren s
    · rw [h.lost s hb] at hr
      exact h.not_reaches hlost hlost hr
    · rcases lt_or_ge s e with hse | hes
      · exact h.not_reaches hlost (h.doomed_next hlost (doomed_of_not_served hs hse)) hr
      · exact hs ⟨hb, fun u _ hsu hue => absurd (hes.trans_lt hsu) (not_lt.mpr hue.le)⟩
  · rintro (hle | hs | hl)
    · exact h.reaches_of_lost (reaches_of_le hle)
    · exact h.reaches_of_served hs
    · exact h.reaches_of_lost (reaches_of_next (h.reaches_of_served hl))

/-- From `lost` on, the way back through `lost` does not help. -/
theorem IsNext.reaches_iff_served [LocallyFiniteOrder T] (h : tt.IsNext lost next)
    (hls : lost ≤ s) (hse : s < e) : Reaches next e (next s) ↔ tt.Served s e := by
  constructor
  · intro hr
    by_contra hs
    obtain ⟨u, hu, hsu, hue⟩ := doomed_of_not_served hs hse
    have hlost : tt.Doomed e lost := ⟨u, hu, hls.trans hsu, hue⟩
    exact h.not_reaches hlost (h.doomed_next hlost ⟨u, hu, hsu, hue⟩) hr
  · exact h.reaches_of_served

end Timetable
