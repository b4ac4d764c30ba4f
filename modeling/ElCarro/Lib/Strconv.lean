import Mathlib.Algebra.Order.Ring.Int

/-! # Numbers read from text

A number is written in base 10 with at most one sign before its digits. One that needs more
than 64 bits is refused.
-/

namespace Strconv

/-- The value of the digits that are left, after those that are read. -/
def readDigits (n : Nat) : List Char → Option Nat
  | [] => some n
  | c :: rest => if c.isDigit then readDigits (10 * n + (c.toNat - 48)) rest else none

def parseUnsigned : List Char → Option Nat
  | [] => none
  | digits => readDigits 0 digits

/-- A signed number of 64 bits. -/
def inInt64 (n : Int) : Option Int := if -2 ^ 63 ≤ n ∧ n < 2 ^ 63 then some n else none

/-- `strconv.ParseInt` with base 10 and 64 bits. -/
def parseInt (s : String) : Option Int :=
  match s.toList with
  | '+' :: digits => (parseUnsigned digits).bind fun n => inInt64 n
  | '-' :: digits => (parseUnsigned digits).bind fun n => inInt64 (-n)
  | digits => (parseUnsigned digits).bind fun n => inInt64 n

/-- The loop of `strconv.ParseUint` with base 10 and 64 bits. -/
def uintDigits (n : Nat) : List Char → UInt64
  | [] => UInt64.ofNat n
  | c :: rest =>
    if c.isDigit then
      let n' := 10 * n + (c.toNat - 48)
      if n' < 2 ^ 64 then uintDigits n' rest else UInt64.ofNat (2 ^ 64 - 1)
    else 0

/-- The value that `strconv.ParseUint` returns, with an error or without: text that is no
number gives zero, and a number of more bits the largest one. -/
def parseUint (s : String) : UInt64 := uintDigits 0 s.toList

theorem inInt64_range {n m : Int} (h : inInt64 n = some m) : -2 ^ 63 ≤ m ∧ m < 2 ^ 63 := by
  unfold inInt64 at h
  split at h
  · next hrange =>
    obtain rfl := Option.some.inj h
    exact hrange
  · cases h

theorem parseInt_range {s : String} {n : Int} (h : parseInt s = some n) :
    -2 ^ 63 ≤ n ∧ n < 2 ^ 63 := by
  unfold parseInt at h
  split at h
  all_goals
    obtain ⟨_, -, hn⟩ := Option.bind_eq_some_iff.mp h
    exact inInt64_range hn

/-- A number can be told from its digits. -/
theorem toDigits_inj {m n : Nat} (h : Nat.toDigits 10 m = Nat.toDigits 10 n) : m = n := by
  have hread := congrArg (fun digits => Nat.ofDigitChars 10 digits 0) h
  simpa only [Nat.ofDigitChars_ten_toDigits] using hread

theorem readDigits_eq {digits : List Char} (h : ∀ c ∈ digits, c.isDigit = true) (n : Nat) :
    readDigits n digits = some (Nat.ofDigitChars 10 digits n) := by
  induction digits generalizing n with
  | nil => rfl
  | cons c digits ih =>
    rw [List.forall_mem_cons] at h
    rw [readDigits, if_pos h.1, ih h.2, Nat.ofDigitChars_cons]
    rfl

/-- A number of 63 bits is read as it was written. -/
theorem parseInt_toDigits {n : Nat} (h : n < 2 ^ 63) :
    parseInt (String.ofList (Nat.toDigits 10 n)) = some (n : Int) := by
  have hdigits : ∀ c ∈ Nat.toDigits 10 n, c.isDigit = true := fun c hc =>
    Nat.isDigit_of_mem_toDigits (by decide) (by decide) hc
  have hread := readDigits_eq hdigits 0
  rw [Nat.ofDigitChars_ten_toDigits] at hread
  have hne : Nat.toDigits 10 n ≠ [] := Nat.toDigits_ne_nil
  have hint : inInt64 n = some (n : Int) := by
    rw [inInt64, if_pos]
    omega
  rw [parseInt, String.toList_ofList]
  cases hcs : Nat.toDigits 10 n with
  | nil => exact absurd hcs hne
  | cons c cs =>
    rw [hcs] at hdigits hread
    have hc : c.isDigit = true := hdigits c List.mem_cons_self
    have hplus : c ≠ '+' := by
      rintro rfl
      cases hc
    have hminus : c ≠ '-' := by
      rintro rfl
      cases hc
    have hunsigned : parseUnsigned (c :: cs) = some n := hread
    split
    · next heq => exact absurd (List.cons.inj heq).1 hplus
    · next heq => exact absurd (List.cons.inj heq).1 hminus
    · rw [hunsigned, Option.bind_some, hint]

theorem toString_inj_of_nonneg {m n : Int} (hm : 0 ≤ m) (hn : 0 ≤ n)
    (h : toString m = toString n) : m = n := by
  obtain ⟨m, rfl⟩ := Int.eq_ofNat_of_zero_le hm
  obtain ⟨n, rfl⟩ := Int.eq_ofNat_of_zero_le hn
  have hrepr : Nat.repr m = Nat.repr n := h
  rw [Nat.repr, Nat.repr, String.ofList_inj] at hrepr
  rw [toDigits_inj hrepr]

/-- A number can be told from its digits when something else follows them. -/
theorem toDigits_append_inj {m n : Nat} {s t : List Char} (hs : ∀ c ∈ s.head?, c.isDigit = false)
    (ht : ∀ c ∈ t.head?, c.isDigit = false)
    (h : Nat.toDigits 10 m ++ s = Nat.toDigits 10 n ++ t) : m = n ∧ s = t := by
  have htake : ∀ (k : Nat) (l : List Char), (∀ c ∈ l.head?, c.isDigit = false) →
      (Nat.toDigits 10 k ++ l).takeWhile Char.isDigit = Nat.toDigits 10 k := by
    intro k l hl
    have hdigits : ∀ c ∈ Nat.toDigits 10 k, c.isDigit = true := fun c hc =>
      Nat.isDigit_of_mem_toDigits (by decide) (by decide) hc
    rw [List.takeWhile_append_of_pos hdigits]
    cases l with
    | nil => simp
    | cons c l => simp [hl c rfl]
  have hdigits : Nat.toDigits 10 m = Nat.toDigits 10 n := by rw [← htake m s hs, h, htake n t ht]
  rw [hdigits] at h
  exact ⟨toDigits_inj hdigits, List.append_cancel_left h⟩

example : parseInt "-9223372036854775808" = some (-2 ^ 63) := by decide

example : parseInt "9223372036854775808" = none := by decide

end Strconv
