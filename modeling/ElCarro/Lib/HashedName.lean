import Mathlib.Data.List.GetD
import Mathlib.Data.List.Nodup
import Mathlib.Data.Nat.Digits.Lemmas
import Mathlib.Data.UInt

/-! # Names that end in a hash

The 64-bit FNV-1 hash of a byte sequence, and names that have a number written at their
end: a separator and the digits of the number, the lowest first, in a character set that
does not have the separator. Such a name can be taken apart again, so two of them are
equal only when their numbers are.
-/

namespace HashedName

section Hash

def offset64 : UInt64 := 14695981039346656037

def prime64 : UInt64 := 1099511628211

/-- FNV-1: multiply by the prime, then xor with the byte. -/
def fnv64 (bs : List UInt8) : UInt64 :=
  bs.foldl (fun hash b => (hash * prime64) ^^^ b.toUInt64) offset64

-- The reference value for the letter a.
example : fnv64 "a".toUTF8.toList = 0xaf63bd4c8601b7be := by decide +kernel

/-- Two different sequences with one hash. -/
def Collide (s t : List UInt8) : Prop := s ≠ t ∧ fnv64 s = fnv64 t

instance (s t : List UInt8) : Decidable (Collide s t) := inferInstanceAs (Decidable (_ ∧ _))

end Hash

section Digits

variable {α : Type*} (charset : List α) (d : α)

/-- The digits of a number in a character set, the lowest first. -/
def digitText (n : ℕ) : List α := (Nat.digits charset.length n).map (charset.getD · d)

variable {charset}

theorem digitText_zero : digitText charset d 0 = [] := by simp [digitText]

theorem digitText_pos (hb : 1 < charset.length) {n : ℕ} (hn : 0 < n) :
    digitText charset d n =
      charset.getD (n % charset.length) d :: digitText charset d (n / charset.length) := by
  rw [digitText, Nat.digits_def' hb hn, List.map_cons, digitText]

theorem length_digitText_le_iff (hb : 1 < charset.length) (n k : ℕ) :
    (digitText charset d n).length ≤ k ↔ n < charset.length ^ k := by
  rw [digitText, List.length_map, Nat.digits_length_le_iff hb]

theorem digitText_subset (hb : 1 < charset.length) (n : ℕ) : digitText charset d n ⊆ charset := by
  intro c hc
  obtain ⟨i, hi, rfl⟩ := List.mem_map.mp hc
  have hlt := Nat.digits_lt_base hb hi
  rw [List.getD_eq_getElem _ _ hlt]
  exact List.getElem_mem hlt

/-- The places of the characters in their set are the digits again. -/
theorem map_idxOf_digitText [DecidableEq α] (hb : 1 < charset.length) (hnodup : charset.Nodup)
    (n : ℕ) : (digitText charset d n).map charset.idxOf = Nat.digits charset.length n := by
  rw [digitText, List.map_map]
  refine (List.map_congr_left fun i hi => ?_).trans (List.map_id _)
  have hlt := Nat.digits_lt_base hb hi
  rw [Function.comp_apply, List.getD_eq_getElem _ _ hlt, hnodup.idxOf_getElem, id]

theorem digitText_injective (hb : 1 < charset.length) (hnodup : charset.Nodup) :
    Function.Injective (digitText charset d) := by
  classical
  intro n m h
  have hdigits := congrArg (List.map charset.idxOf) h
  rw [map_idxOf_digitText d hb hnodup, map_idxOf_digitText d hb hnodup] at hdigits
  exact Nat.digits_inj_iff.mp hdigits

end Digits

section Separator

variable {α : Type*} {sep : α}

/-- What follows on the last separator can be told from what precedes it. -/
theorem append_sep_inj {x x' z z' : List α} (hz : sep ∉ z) (hz' : sep ∉ z')
    (h : x ++ sep :: z = x' ++ sep :: z') : x = x' ∧ z = z' := by
  rcases List.append_eq_append_iff.mp h with ⟨c, rfl, hc⟩ | ⟨c, rfl, hc⟩
  · cases c with
    | nil => exact ⟨(List.append_nil x).symm, (List.cons.inj hc).2⟩
    | cons d c =>
      rw [List.cons_append, List.cons.injEq] at hc
      exact absurd (hc.2 ▸ by simp) hz
  · cases c with
    | nil => exact ⟨List.append_nil x', ((List.cons.inj hc).2).symm⟩
    | cons d c =>
      rw [List.cons_append, List.cons.injEq] at hc
      exact absurd (hc.2 ▸ by simp) hz'

/-- Equal names have equal numbers at their ends. -/
theorem hashed_inj {charset : List α} {d : α} (hb : 1 < charset.length)
    (hnodup : charset.Nodup) (hsep : sep ∉ charset) {x x' : List α} {n m : ℕ}
    (h : x ++ sep :: digitText charset d n = x' ++ sep :: digitText charset d m) :
    x = x' ∧ n = m := by
  have hfree (k : ℕ) : sep ∉ digitText charset d k :=
    fun hmem => hsep (digitText_subset d hb k hmem)
  obtain ⟨hx, hdigits⟩ := append_sep_inj (hfree n) (hfree m) h
  exact ⟨hx, digitText_injective d hb hnodup hdigits⟩

end Separator

end HashedName
