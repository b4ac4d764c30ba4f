import Mathlib.Data.List.TakeWhile
import Mathlib.Data.String.Basic

/-! # Lines and fields of a text

A scanner hands out the lines of a text one by one, without their ends, and stops at a
line that does not fit its buffer. The fields of a line are what its white space separates.
-/

namespace Scanner

section Fields

/-- `unicode.IsSpace`. -/
def isSpace (c : Char) : Bool :=
  c.toNat ∈ [0x09, 0x0a, 0x0b, 0x0c, 0x0d, 0x20, 0x85, 0xa0, 0x1680, 0x2028, 0x2029, 0x202f,
    0x205f, 0x3000] ∨ 0x2000 ≤ c.toNat ∧ c.toNat ≤ 0x200a

/-- `strings.Fields`. -/
def fields (line : String) : List String :=
  ((line.toList.splitOnP isSpace).filter (· ≠ [])).map String.ofList

end Fields

section Lines

/-- `bufio.MaxScanTokenSize`, in bytes. -/
def maxScanTokenSize : Nat := 64 * 1024

/-- The lines of what is left, with the characters of the first one that have been read. -/
def splitLines (current : List Char) : List Char → List (List Char)
  | [] => if current = [] then [] else [current.reverse]
  | c :: cs => if c = '\n' then current.reverse :: splitLines [] cs else splitLines (c :: current) cs

def dropCR (line : List Char) : List Char :=
  if line.getLast? = some '\r' then line.dropLast else line

/-- What the calls of `Scan` find, to the first one that fails. -/
def lines (text : String) : List String :=
  ((splitLines [] text.toList).takeWhile fun line =>
    (String.ofList line).utf8ByteSize < maxScanTokenSize).map fun line => String.ofList (dropCR line)

/-- A line that is read as it was written. -/
structure IsLine (line : String) : Prop where
  noNewline : '\n' ∉ line.toList
  noCR : line.toList.getLast? ≠ some '\r'
  short : line.utf8ByteSize < maxScanTokenSize

instance (line : String) : Decidable (IsLine line) :=
  decidable_of_iff ('\n' ∉ line.toList ∧ line.toList.getLast? ≠ some '\r' ∧
    line.utf8ByteSize < maxScanTokenSize)
    ⟨fun h => ⟨h.1, h.2.1, h.2.2⟩, fun h => ⟨h.noNewline, h.noCR, h.short⟩⟩

def unlines (ls : List String) : String :=
  String.ofList (ls.flatMap fun line => line.toList ++ ['\n'])

theorem splitLines_append {current line rest : List Char} (h : '\n' ∉ line) :
    splitLines current (line ++ '\n' :: rest) =
      (current.reverse ++ line) :: splitLines [] rest := by
  induction line generalizing current with
  | nil => simp [splitLines]
  | cons c line ih =>
    rw [List.mem_cons, not_or] at h
    rw [List.cons_append, splitLines, if_neg (Ne.symm h.1), ih h.2]
    simp

theorem splitLines_flatMap {ls : List String} (h : ∀ line ∈ ls, '\n' ∉ line.toList) :
    splitLines [] (ls.flatMap fun line => line.toList ++ ['\n']) = ls.map String.toList := by
  induction ls with
  | nil => rfl
  | cons line ls ih =>
    rw [List.forall_mem_cons] at h
    rw [List.flatMap_cons, List.append_assoc, List.singleton_append, splitLines_append h.1, ih h.2]
    rfl

/-- Lines that are written are read. -/
theorem lines_unlines {ls : List String} (h : ∀ line ∈ ls, IsLine line) :
    lines (unlines ls) = ls := by
  have hshort : ∀ line ∈ ls.map String.toList,
      decide ((String.ofList line).utf8ByteSize < maxScanTokenSize) = true := by
    intro line hline
    obtain ⟨l, hl, rfl⟩ := List.mem_map.mp hline
    simpa using (h l hl).short
  rw [lines, unlines, String.toList_ofList, splitLines_flatMap fun line hline =>
    (h line hline).noNewline, List.takeWhile_eq_self_iff.mpr hshort, List.map_map]
  conv_rhs => rw [← List.map_id ls]
  refine List.map_congr_left fun line hline => ?_
  simp [dropCR, (h line hline).noCR]

end Lines

end Scanner
