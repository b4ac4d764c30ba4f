import Mathlib.Algebra.Order.Ring.Int

/-! # Machine integers, instants and durations

Machine integers are integers reduced to the signed range of their width.
Instants are nanoseconds counted from the zero instant (year 1), durations are
signed 64-bit nanosecond counts. The difference of two instants saturates at the
ends of the duration range instead of wrapping.
-/

namespace GoTime

/-- Conversion to a signed 32-bit integer. -/
def int32 (n : Int) : Int := n.bmod (2 ^ 32)

/-- Conversion to a signed 64-bit integer. -/
def int64 (n : Int) : Int := n.bmod (2 ^ 64)

/-- An instant, in nanoseconds since the zero instant. -/
abbrev Time := Int

/-- A duration in nanoseconds. -/
abbrev Duration := Int

def second : Duration := 1000000000
def minute : Duration := 60 * second
def hour : Duration := 60 * minute
def day : Duration := 24 * hour

def maxDuration : Duration := 2 ^ 63 - 1
def minDuration : Duration := -2 ^ 63

def IsZero (t : Time) : Prop := t = 0

instance : DecidablePred IsZero := fun t => inferInstanceAs (Decidable (t = 0))

/-- Seconds since 1970, rounded down. -/
def unix (t : Time) : Int := t / second - 62135596800

/-- The instant of a number of seconds since 1970. -/
def ofUnix (seconds : Int) : Time := (seconds + 62135596800) * second

def IsLeap (year : Int) : Prop := year % 4 = 0 ∧ (year % 100 ≠ 0 ∨ year % 400 = 0)

instance (year : Int) : Decidable (IsLeap year) :=
  inferInstanceAs (Decidable (year % 4 = 0 ∧ (year % 100 ≠ 0 ∨ year % 400 = 0)))

/-- The lengths of the months of a year. -/
def monthLengths (year : Int) : List Int :=
  [31, if IsLeap year then 29 else 28, 31, 30, 31, 30, 31, 31, 30, 31, 30, 31]

/-- Midnight of a date in UTC; months and days count from 1. -/
def date (year : Int) (month dayOfMonth : Nat) : Time :=
  let y := year - 1
  (365 * y + y / 4 - y / 100 + y / 400 + ((monthLengths year).take (month - 1)).sum +
    (dayOfMonth - 1)) * day

/-- `t.Sub(u)`, clamped to the duration range. -/
def sub (t u : Time) : Duration := max minDuration (min maxDuration (t - u))

/-- How often a number leaves the 64-bit range, upwards or downwards. -/
def wraps (n : Int) : Int := (n + 2 ^ 63) / 2 ^ 64

theorem int64_eq (n : Int) : int64 n = n - wraps n * 2 ^ 64 := by
  unfold int64 wraps
  rw [Int.bmod_def]
  omega

theorem sub_nonneg_iff {t u : Time} : 0 ≤ sub t u ↔ u ≤ t := by
  unfold sub maxDuration minDuration Time Duration
  omega

theorem sub_pos_iff {t u : Time} : 0 < sub t u ↔ u < t := by
  unfold sub maxDuration minDuration Time Duration
  omega

theorem sub_lt_max_iff {t u : Time} : sub t u < maxDuration ↔ t - u < maxDuration := by
  unfold sub maxDuration minDuration Time Duration
  omega

/-- Distances to a common instant that are not negative order the instants the other way. -/
theorem le_of_sub_le_sub {t u v : Time} (hu : sub t u < maxDuration) (hv : v ≤ t)
    (h : sub t u ≤ sub t v) : v ≤ u := by
  unfold sub maxDuration minDuration Time Duration at *
  omega

end GoTime
