import Mathlib.Data.Rat.Cast.Defs
import Mathlib.Data.Nat.Size

/-! # Integers as floating-point numbers

An integer that needs more bits than the significand has is rounded to a multiple of its
last place, to the nearest one or, halfway between two, to the even one.
-/

namespace Float64

/-- The values of the 64-bit format; the sign of zero is left out. -/
inductive Value where
  | finite (q : ℚ)
  | inf (negative : Bool)
  | nan
  deriving DecidableEq, Repr

/-- Comparison for equality; what is not a number differs from itself. -/
instance : BEq Value where
  beq
    | .nan, _ => false
    | x, y => decide (x = y)

section Rounding

/-- The weight of the last place for a number, with so many bits in a significand. -/
def ulp (bits n : ℕ) : ℕ := 2 ^ (n.size - bits)

/-- Division to the nearest, ties to even. -/
def nearestEven (n d : ℕ) : ℕ :=
  n / d + if d < 2 * (n % d) ∨ (2 * (n % d) = d ∧ n / d % 2 = 1) then 1 else 0

def round (bits n : ℕ) : ℕ := nearestEven n (ulp bits n) * ulp bits n

theorem nearestEven_of_dvd {n d : ℕ} (hd : 0 < d) (h : d ∣ n) : nearestEven n d = n / d := by
  have hmod : n % d = 0 := Nat.mod_eq_zero_of_dvd h
  have hup : ¬ (d < 2 * (n % d) ∨ (2 * (n % d) = d ∧ n / d % 2 = 1)) := by
    rw [hmod]
    omega
  rw [nearestEven, if_neg hup, Nat.add_zero]

/-- Rounding keeps exactly the multiples of the last place. -/
theorem round_eq_self_iff {bits n : ℕ} : round bits n = n ↔ ulp bits n ∣ n := by
  constructor
  · intro h
    rw [round] at h
    exact Dvd.intro_left _ h
  · intro h
    have hpos : 0 < ulp bits n := Nat.two_pow_pos _
    rw [round, nearestEven_of_dvd hpos h, Nat.div_mul_cancel h]

/-- The conversion of an integer to the format. -/
def ofInt (n : ℤ) : Value := .finite ((n.sign * round 53 n.natAbs : ℤ) : ℚ)

theorem ofInt_eq_iff {n : ℤ} : ofInt n = .finite n ↔ ulp 53 n.natAbs ∣ n.natAbs := by
  rw [ofInt, Value.finite.injEq, Int.cast_inj, ← round_eq_self_iff]
  constructor
  · intro h
    rcases Int.lt_trichotomy n 0 with hn | hn | hn
    · rw [Int.sign_eq_neg_one_of_neg hn] at h
      omega
    · subst hn
      decide
    · rw [Int.sign_eq_one_of_pos hn] at h
      omega
  · intro h
    rw [h]
    exact Int.sign_mul_natAbs n

-- The first integer without a place, and its even neighbour below.
example : round 53 (2 ^ 53 + 1) = 2 ^ 53 := by decide +kernel

end Rounding

end Float64
