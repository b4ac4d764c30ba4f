import Mathlib.Data.List.Basic

/-! # Names in quotes after fixed words

A pattern has some alternatives, each a fixed text that ends where a quoted name begins; the
name goes to the next quote on the same line. The search takes the leftmost match and goes
on behind it. No match has the end of a line in it, so those of a text are the ones of its
lines.
-/

namespace QuotedNames

variable {φ : Type}

/-- The alternatives in their order. -/
structure Table (φ : Type) where
  openings : List (φ × List Char)
  nonempty : ∀ e ∈ openings, e.2 ≠ []
  newline_notMem : ∀ e ∈ openings, '\n' ∉ e.2
  return_notMem : ∀ e ∈ openings, '\r' ∉ e.2

/-- The name that ends at the first quote, which is to come before the end of the line. -/
def close : List Char → Option (List Char)
  | [] => none
  | c :: cs => if c = '"' then some [] else if c = '\n' then none else (close cs).map (c :: ·)

structure Match (φ : Type) where
  form : φ
  name : List Char
  length : ℕ
  deriving DecidableEq, Repr

/-- Match one alternative at the beginning of a text. -/
def matchOpening (text : List Char) (e : φ × List Char) : Option (Match φ) :=
  if e.2.isPrefixOf text then
    (close (text.drop e.2.length)).map fun name => ⟨e.1, name, e.2.length + name.length + 1⟩
  else none

variable (table : Table φ)

def matchAt (text : List Char) : Option (Match φ) :=
  table.openings.findSome? (matchOpening text)

/-- The leftmost match. -/
def find : List Char → Option (Match φ)
  | [] => none
  | c :: cs => (matchAt table (c :: cs)).or (find cs)

/-- All matches, one behind the other; so many characters still belong to the last one. -/
def findAll : ℕ → List Char → List (Match φ)
  | _, [] => []
  | n + 1, _ :: cs => findAll n cs
  | 0, c :: cs =>
    match matchAt table (c :: cs) with
    | some m => m :: findAll (m.length - 1) cs
    | none => findAll 0 cs

theorem find_eq_head? (text : List Char) : find table text = (findAll table 0 text).head? := by
  induction text with
  | nil => rfl
  | cons c cs ih =>
    rw [find, findAll]
    cases matchAt table (c :: cs) with
    | none => exact ih
    | some m => rfl

section Append

variable {cs tail : List Char}

theorem length_close_lt {name : List Char} (h : close cs = some name) :
    name.length < cs.length := by
  induction cs generalizing name with
  | nil => simp [close] at h
  | cons c cs ih =>
    rw [close] at h
    split at h
    · cases h
      simp
    · split at h
      · cases h
      · obtain ⟨rest, hrest, rfl⟩ := Option.map_eq_some_iff.mp h
        have := ih hrest
        simp only [List.length_cons]
        omega

theorem close_append (htail : close tail = none) : close (cs ++ tail) = close cs := by
  induction cs with
  | nil => exact htail
  | cons c cs ih => rw [List.cons_append, close, close, ih]

/-- A text at which every match ends that begins before it. -/
structure Barrier (tail : List Char) : Prop where
  head : ∀ c ∈ tail.head?, ∀ e ∈ table.openings, c ∉ e.2
  close : close tail = none

variable {table}

theorem matchAt_length_le {m : Match φ} (h : matchAt table cs = some m) :
    m.length ≤ cs.length := by
  obtain ⟨e, -, he⟩ := List.exists_of_findSome?_eq_some h
  rw [matchOpening] at he
  split at he
  · rename_i hpre
    obtain ⟨name, hname, rfl⟩ := Option.map_eq_some_iff.mp he
    have hclose := length_close_lt hname
    rw [List.length_drop] at hclose
    show e.2.length + name.length + 1 ≤ cs.length
    omega
  · cases he

theorem isPrefixOf_append {op : List Char} (htail : ∀ c ∈ tail.head?, c ∉ op) :
    op.isPrefixOf (cs ++ tail) = op.isPrefixOf cs := by
  induction cs generalizing op with
  | nil =>
    cases op with
    | nil => rfl
    | cons a op =>
      cases tail with
      | nil => rfl
      | cons c tail =>
        have hne : (a == c) = false := by
          rw [beq_eq_false_iff_ne]
          rintro rfl
          exact htail a rfl List.mem_cons_self
        simp [List.isPrefixOf, hne]
  | cons d cs ih =>
    cases op with
    | nil => rfl
    | cons a op =>
      rw [List.cons_append, List.isPrefixOf, List.isPrefixOf,
        ih fun c hc hop => htail c hc (List.mem_cons_of_mem a hop)]

theorem findSome?_congr_of_mem {α β : Type} {f g : α → Option β} {l : List α}
    (h : ∀ x ∈ l, f x = g x) : l.findSome? f = l.findSome? g := by
  induction l with
  | nil => rfl
  | cons x l ih =>
    rw [List.forall_mem_cons] at h
    simp only [List.findSome?_cons, h.1, ih h.2]

theorem matchAt_append (hbar : Barrier table tail) :
    matchAt table (cs ++ tail) = matchAt table cs := by
  refine findSome?_congr_of_mem fun e he => ?_
  rw [matchOpening, matchOpening, isPrefixOf_append fun c hc => hbar.head c hc e he]
  split
  · rename_i hpre
    have hle := (List.isPrefixOf_iff_prefix.mp hpre).length_le
    rw [List.drop_append_of_le_length hle, close_append hbar.close]
  · rfl

/-- The matches on both sides of a barrier. -/
theorem findAll_append (hbar : Barrier table tail) {n : ℕ} (hn : n ≤ cs.length) :
    findAll table n (cs ++ tail) = findAll table n cs ++ findAll table 0 tail := by
  induction cs generalizing n with
  | nil =>
    obtain rfl : n = 0 := Nat.le_zero.mp hn
    rfl
  | cons c cs ih =>
    cases n with
    | succ n => exact ih (Nat.le_of_succ_le_succ hn)
    | zero =>
      rw [List.cons_append, findAll, findAll, ← List.cons_append, matchAt_append hbar]
      cases hmatch : matchAt table (c :: cs) with
      | none => exact ih (Nat.zero_le _)
      | some m =>
        have hlen := matchAt_length_le hmatch
        rw [List.length_cons] at hlen
        rw [List.cons_append, ← ih (by omega)]

theorem matchAt_of_notMem {c : Char} (h : ∀ e ∈ table.openings, c ∉ e.2) :
    matchAt table (c :: cs) = none := by
  refine List.findSome?_eq_none_iff.mpr fun e he => if_neg ?_
  intro hpre
  cases hop : e.2 with
  | nil => exact table.nonempty e he hop
  | cons a op =>
    rw [hop, List.isPrefixOf, Bool.and_eq_true, beq_iff_eq] at hpre
    exact h e he (by rw [hop, hpre.1]; exact List.mem_cons_self)

theorem findAll_newline (rest : List Char) :
    findAll table 0 (cs ++ '\n' :: rest) = findAll table 0 cs ++ findAll table 0 rest := by
  have hbar : Barrier table ('\n' :: rest) :=
    ⟨fun c hc => by rw [← Option.some.inj hc]; exact table.newline_notMem, rfl⟩
  rw [findAll_append hbar (Nat.zero_le _), findAll, matchAt_of_notMem table.newline_notMem]

theorem findAll_return : findAll table 0 (cs ++ ['\r']) = findAll table 0 cs := by
  have hbar : Barrier table ['\r'] :=
    ⟨fun c hc => by rw [← Option.some.inj hc]; exact table.return_notMem, rfl⟩
  rw [findAll_append hbar (Nat.zero_le _), findAll, matchAt_of_notMem table.return_notMem,
    findAll, List.append_nil]

end Append

end QuotedNames
