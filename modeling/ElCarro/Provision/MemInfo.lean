import Mathlib.Data.List.Infix
import ElCarro.Lib.Scanner
import ElCarro.Lib.Strconv

/-! # Free memory of a host

Before a database is bootstrapped, and for the parameters of a standby, the memory that is
available is read from `/proc/meminfo`. The two readers look for the same line; one of them goes
on reading after the end of the file.
-/

namespace ElCarro.Provision.MemInfo

open Scanner

section Functions

/-- What the file says. It is ASCII, so that each character is a byte. -/
structure Content where
  text : String
  ascii : ∀ c ∈ text.toList, c.toNat < 128

/-- How a reader ends without a number: with an error, or with a slice that is out of range. -/
inductive Failure where
  | err (text : String)
  | panic
  deriving DecidableEq, Repr

def tag : List Char := "MemAvailable:".toList

/-- `strings.TrimSpace` -/
def trimSpace (line : List Char) : List Char :=
  ((line.dropWhile isSpace).reverse.dropWhile isSpace).reverse

/-- What a line with the tag says; it may be no number. -/
def memory (text : String) (line : List Char) : Except Failure (Option Int) :=
  match line.splitOn ':' with
  | [_, rest] =>
    let line := trimSpace rest
    if line.length < 3 then .error .panic
    else .ok (Strconv.parseInt (String.ofList (line.take (line.length - 3))))
  | _ => .error (.err text)

/-- `ReadString('\n')`: a line with its end, or what is left. -/
def readString (buffer : List Char) : List Char × List Char :=
  let rest := buffer.dropWhile (· ≠ '\n')
  (buffer.takeWhile (· ≠ '\n') ++ rest.take 1, rest.drop 1)

/-- The loop of `getFreeMemInfoFromProc`, which does not end with the buffer. -/
def readLoop : ℕ → List Char → Option (Except Failure Int)
  | 0, _ => none
  | n + 1, buffer =>
    let (line, rest) := readString buffer
    if tag <:+: line then
      match memory "error while parsing available memory info" line with
      | .error failure => some (.error failure)
      | .ok (some mem) => some (.ok mem)
      | .ok none => readLoop n rest
    else readLoop n rest

/-- `getFreeMemInfoFromProc`, for a number of rounds. -/
def getFreeMemInfoFromProc (n : ℕ) : Option Content → Option (Except Failure Int)
  | none => some (.error (.err "unable to read /proc/meminfo file"))
  | some content => readLoop n content.text.toList

/-- The loop of `getDBHostFreeMem`. -/
def scanLoop : List String → Except Failure Int
  | [] => .error (.err "getDBHostFreeMem: Didn't find MemAvailable in /proc/meminfo")
  | line :: lines =>
    if tag <:+: line.toList then
      match memory "getDBHostFreeMem: Error while parsing available memory info" line.toList with
      | .error failure => .error failure
      | .ok (some mem) => .ok mem
      | .ok none => .error (.err "getDBHostFreeMem: Didn't find MemAvailable in /proc/meminfo")
    else scanLoop lines

def getDBHostFreeMem : Except String Content → Except Failure Int
  | .error err =>
    .error (.err ("getDBHostFreeMem: Error while reading /proc/meminfo: " ++ err))
  | .ok content => scanLoop (lines content.text)

end Functions

section Lines

variable {text : String} {line : List Char} {c : Char}

/-- What a reader makes of a line; most lines do not end it. -/
def decision (text : String) (line : List Char) : Option (Except Failure Int) :=
  if tag <:+: line then
    match memory text line with
    | .error failure => some (.error failure)
    | .ok mem => mem.map .ok
  else none

theorem trimSpace_concat (hc : isSpace c = true) : trimSpace (line ++ [c]) = trimSpace line := by
  rw [trimSpace, trimSpace, List.dropWhile_append]
  split
  · next h => simp [List.isEmpty_iff.mp h, hc]
  · rw [List.reverse_append]
    simp [hc]

/-- A character at the end belongs to the last part. -/
theorem splitOn_concat (line : List Char) (hc : c ≠ ':') :
    ∃ parts last, line.splitOn ':' = parts ++ [last] ∧
      (line ++ [c]).splitOn ':' = parts ++ [last ++ [c]] := by
  induction line with
  | nil => exact ⟨[], [], by simp, by simp [List.splitOn_cons_eq_if_modifyHead, hc]⟩
  | cons x line ih =>
    obtain ⟨parts, last, hline, hmore⟩ := ih
    rw [List.cons_append, List.splitOn_cons_eq_if_modifyHead, List.splitOn_cons_eq_if_modifyHead,
      hline, hmore]
    split
    · exact ⟨[] :: parts, last, rfl, rfl⟩
    · cases parts with
      | nil => exact ⟨[], x :: last, rfl, rfl⟩
      | cons part parts => exact ⟨(x :: part) :: parts, last, rfl, rfl⟩

theorem memory_concat (hc : c ≠ ':') (hspace : isSpace c = true) :
    memory text (line ++ [c]) = memory text line := by
  obtain ⟨parts, last, hline, hmore⟩ := splitOn_concat line hc
  rw [memory, memory, hline, hmore]
  cases parts with
  | nil => rfl
  | cons part parts =>
    cases parts with
    | nil => simp only [List.cons_append, List.nil_append, trimSpace_concat hspace]
    | cons part' parts => cases parts <;> rfl

theorem tag_concat (hc : c ∉ tag) : tag <:+: line ++ [c] ↔ tag <:+: line := by
  rw [List.infix_concat_iff, List.suffix_concat_iff]
  refine or_iff_right ?_
  rintro (hnil | ⟨rest, hrest, -⟩)
  · cases hnil
  · exact hc (hrest ▸ List.mem_append_right rest (List.mem_singleton_self c))

/-- The end of a line does not matter. -/
theorem decision_concat (hc : c = '\n' ∨ c = '\r') :
    decision text (line ++ [c]) = decision text line := by
  have hspace : isSpace c = true := by
    rcases hc with rfl | rfl <;> decide
  have hcolon : c ≠ ':' := by
    rcases hc with rfl | rfl <;> decide
  have htag : c ∉ tag := by
    rcases hc with rfl | rfl <;> decide
  rw [decision, decision, memory_concat hcolon hspace]
  simp only [tag_concat htag]

theorem decision_dropCR : decision text (dropCR line) = decision text line := by
  rw [dropCR]
  split
  · next h =>
    obtain ⟨rest, rfl⟩ := List.getLast?_eq_some_iff.mp h
    rw [List.dropLast_concat, decision_concat (.inr rfl)]
  · rfl

theorem decision_eq_some_iff :
    (∃ r, decision text line = some r) ↔ tag <:+: line ∧ memory text line ≠ .ok none := by
  rw [decision]
  split
  · next htag =>
    cases hmem : memory text line with
    | error failure => simp [htag]
    | ok mem => cases mem <;> simp [htag]
  · next htag => simp [htag]

/-- The text of an error makes no difference to a number. -/
theorem memory_ok {text' : String} {mem : Option Int} (h : memory text line = .ok mem) :
    memory text' line = .ok mem := by
  rw [memory] at h ⊢
  split at h
  · exact h
  · cases h

end Lines

section Reading

theorem forall_ne_newline {line : List Char} (h : '\n' ∉ line) :
    ∀ c ∈ line, decide (c ≠ '\n') = true := by
  intro c hc
  exact decide_eq_true fun hcn => h (hcn ▸ hc)

theorem readString_line {line rest : List Char} (h : '\n' ∉ line) :
    readString (line ++ '\n' :: rest) = (line ++ ['\n'], rest) := by
  have hline := forall_ne_newline h
  rw [readString, List.takeWhile_append_of_pos hline, List.dropWhile_append_of_pos hline]
  simp

theorem readString_last {buffer : List Char} (h : '\n' ∉ buffer) :
    readString buffer = (buffer, []) := by
  have hline := forall_ne_newline h
  rw [readString, List.takeWhile_eq_self_iff.mpr hline, List.dropWhile_eq_nil_iff.mpr hline]
  simp

/-- The text of the error of `getFreeMemInfoFromProc`. -/
def parsing : String := "error while parsing available memory info"

theorem readLoop_succ {buffer line rest : List Char} (h : readString buffer = (line, rest))
    (n : ℕ) : readLoop (n + 1) buffer = (decision parsing line).or (readLoop n rest) := by
  rw [readLoop, h, decision, parsing]
  dsimp only
  generalize memory "error while parsing available memory info" line = mem
  split
  · rcases mem with failure | (_ | mem) <;> simp
  · rw [Option.none_or]

theorem decision_nil (text : String) : decision text [] = none := by
  have htag : ¬ tag <:+: [] := fun h => absurd (List.infix_nil.mp h) (by decide)
  rw [decision, if_neg htag]

/-- At the end of the buffer the loop goes round for ever. -/
theorem readLoop_nil (n : ℕ) : readLoop n [] = none := by
  induction n with
  | zero => rfl
  | succ n ih =>
    rw [readLoop_succ (readString_last List.not_mem_nil), decision_nil, ih]
    rfl

/-- One more line is read. -/
theorem readLoop_or {buffer line rest : List Char} (h : readString buffer = (line, rest))
    {r : Except Failure Int} :
    (∃ n, readLoop n buffer = some r) ↔
      decision parsing line = some r ∨ decision parsing line = none ∧
        ∃ n, readLoop n rest = some r := by
  constructor
  · rintro ⟨n, hn⟩
    cases n with
    | zero => cases hn
    | succ n =>
      rw [readLoop_succ h, Option.or_eq_some_iff] at hn
      exact hn.imp id fun hn => ⟨hn.1, n, hn.2⟩
  · rintro (hline | ⟨hline, n, hn⟩)
    · exact ⟨1, by rw [readLoop_succ h, hline, Option.some_or]⟩
    · exact ⟨n + 1, by rw [readLoop_succ h, hline, hn, Option.none_or]⟩

theorem splitLines_last {buffer : List Char} (h : '\n' ∉ buffer) (current : List Char) :
    splitLines current buffer =
      if current.reverse ++ buffer = [] then [] else [current.reverse ++ buffer] := by
  induction buffer generalizing current with
  | nil => simp [splitLines]
  | cons c buffer ih =>
    rw [List.mem_cons, not_or] at h
    rw [splitLines, if_neg (Ne.symm h.1), ih h.2]
    simp

/-- The loop returns what the first line that decides says. -/
theorem readLoop_eq_some_iff {buffer : List Char} {r : Except Failure Int} :
    (∃ n, readLoop n buffer = some r) ↔
      (splitLines [] buffer).findSome? (decision parsing) = some r := by
  induction hlen : buffer.length using Nat.strongRecOn generalizing buffer with
  | ind len ih =>
    by_cases hnl : '\n' ∈ buffer
    · obtain ⟨line, rest, rfl, hline⟩ := List.eq_append_cons_of_mem hnl
      have hshorter : rest.length < len := by
        rw [List.length_append, List.length_cons] at hlen
        omega
      rw [readLoop_or (readString_line hline), splitLines_append hline, List.findSome?_cons,
        decision_concat (.inl rfl), ih rest.length hshorter rfl, List.reverse_nil,
        List.nil_append]
      cases decision parsing line <;> simp
    · have hend : ¬ ∃ n, readLoop n [] = some r := by simp [readLoop_nil]
      rw [readLoop_or (readString_last hnl), splitLines_last hnl, List.reverse_nil,
        List.nil_append]
      by_cases hnil : buffer = []
      · simp [hnil, decision_nil, hend]
      · simp [hnil, hend]

end Reading

section Results

variable {content : Content} {mem : Int}

/-- The reader of `init_oracle` returns exactly if some line of the file decides; without the
line, as in a kernel that does not print it, it reads for ever. -/
theorem getFreeMemInfoFromProc_ends_iff :
    (∃ n r, getFreeMemInfoFromProc n (some content) = some r) ↔
      ∃ line ∈ splitLines [] content.text.toList,
        tag <:+: line ∧ memory parsing line ≠ .ok none := by
  have hends : (∃ n r, getFreeMemInfoFromProc n (some content) = some r) ↔
      ∃ r, (splitLines [] content.text.toList).findSome? (decision parsing) = some r := by
    rw [exists_comm]
    exact exists_congr fun r => readLoop_eq_some_iff
  rw [hends]
  simp only [← decision_eq_some_iff, ← Option.isSome_iff_exists, List.findSome?_isSome_iff]

theorem scanLoop_cons {line : String} {lines : List String}
    (h : scanLoop (line :: lines) = .ok mem) :
    decision parsing line.toList = some (.ok mem) ∨
      decision parsing line.toList = none ∧ scanLoop lines = .ok mem := by
  rw [scanLoop] at h
  split at h
  · next htag =>
    left
    split at h
    · cases h
    · next m hmem =>
      obtain rfl : m = mem := Except.ok.inj h
      rw [decision, if_pos htag, memory_ok hmem]
      rfl
    · cases h
  · next htag => exact .inr ⟨if_neg htag, h⟩

theorem findSome?_of_scanLoop {lines : List (List Char)} {short : List Char → Bool}
    (h : scanLoop ((lines.takeWhile short).map fun line => String.ofList (dropCR line)) =
      .ok mem) : lines.findSome? (decision parsing) = some (.ok mem) := by
  induction lines with
  | nil => cases h
  | cons line lines ih =>
    rw [List.takeWhile_cons] at h
    split at h
    · rw [List.map_cons] at h
      have hline := scanLoop_cons h
      rw [String.toList_ofList, decision_dropCR] at hline
      rw [List.findSome?_cons]
      rcases hline with hline | ⟨hline, hlines⟩
      · rw [hline]
      · rw [hline]
        exact ih hlines
    · cases h

/-- A number that the reader of the standby finds, the other one finds too. -/
theorem getFreeMemInfoFromProc_of_getDBHostFreeMem (h : getDBHostFreeMem (.ok content) = .ok mem) :
    ∃ n, getFreeMemInfoFromProc n (some content) = some (.ok mem) :=
  readLoop_eq_some_iff.mpr (findSome?_of_scanLoop h)

/-- The line as the kernel prints it. -/
def memLine (spaces n : ℕ) : String :=
  String.ofList (tag ++ (List.replicate spaces ' ' ++ (Nat.toDigits 10 n ++ " kB".toList)))

theorem isSpace_of_isDigit {c : Char} (h : c.isDigit = true) : isSpace c = false := by
  have hrange : 48 ≤ c.toNat ∧ c.toNat ≤ 57 := by
    simpa [Char.isDigit, UInt32.le_iff_toNat_le] using h
  rw [isSpace, decide_eq_false_iff_not]
  simp only [List.mem_cons, List.not_mem_nil, or_false]
  omega

theorem trimSpace_printed (spaces n : ℕ) :
    trimSpace (List.replicate spaces ' ' ++ (Nat.toDigits 10 n ++ " kB".toList)) =
      Nat.toDigits 10 n ++ " kB".toList := by
  have hspaces : ∀ c ∈ List.replicate spaces ' ', isSpace c = true := by
    intro c hc
    rw [List.eq_of_mem_replicate hc]
    decide
  have hdigits : (Nat.toDigits 10 n ++ " kB".toList).dropWhile isSpace =
      Nat.toDigits 10 n ++ " kB".toList := by
    cases hcs : Nat.toDigits 10 n with
    | nil => exact absurd hcs Nat.toDigits_ne_nil
    | cons c cs =>
      have hmem : c ∈ Nat.toDigits 10 n := hcs ▸ List.mem_cons_self
      have hc := isSpace_of_isDigit (Nat.isDigit_of_mem_toDigits (by decide) (by decide) hmem)
      rw [List.cons_append, List.dropWhile_cons_of_neg (by simp [hc])]
  have hunit : (" kB".toList.reverse ++ (Nat.toDigits 10 n).reverse).dropWhile isSpace =
      " kB".toList.reverse ++ (Nat.toDigits 10 n).reverse := List.dropWhile_cons_of_neg (by decide)
  rw [trimSpace, List.dropWhile_append_of_pos hspaces, hdigits, List.reverse_append, hunit,
    List.reverse_append, List.reverse_reverse, List.reverse_reverse]

theorem memory_printed (text : String) {spaces n : ℕ} (hn : n < 2 ^ 63) :
    memory text (memLine spaces n).toList = .ok (some (n : Int)) := by
  have hdigits : ∀ c ∈ Nat.toDigits 10 n, c.isDigit = true := fun c hc =>
    Nat.isDigit_of_mem_toDigits (by decide) (by decide) hc
  have hrest : ':' ∉ List.replicate spaces ' ' ++ (Nat.toDigits 10 n ++ " kB".toList) := by
    rw [List.mem_append, List.mem_append]
    rintro (h | h | h)
    · cases List.eq_of_mem_replicate h
    · cases hdigits _ h
    · revert h
      decide
  have hsplit : (memLine spaces n).toList.splitOn ':' =
      ["MemAvailable".toList, List.replicate spaces ' ' ++ (Nat.toDigits 10 n ++ " kB".toList)] := by
    have htag : tag = "MemAvailable".toList ++ [':'] := by decide
    rw [memLine, String.toList_ofList, htag, List.append_assoc, List.singleton_append,
      List.splitOn_append_cons_self_of_not_mem (by decide), List.splitOn_eq_singleton hrest]
  rw [memory, hsplit]
  dsimp only
  have hunit : " kB".toList.length = 3 := by decide
  rw [trimSpace_printed, if_neg (by simp), List.length_append, hunit, Nat.add_sub_cancel,
    List.take_left, Strconv.parseInt_toDigits hn]

theorem scanLoop_printed {before rest : List String} {spaces n : ℕ}
    (hbefore : ∀ line ∈ before, ¬ tag <:+: line.toList) (hn : n < 2 ^ 63) :
    scanLoop (before ++ memLine spaces n :: rest) = .ok (n : Int) := by
  induction before with
  | nil =>
    have htag : tag <:+: (memLine spaces n).toList := by
      rw [memLine, String.toList_ofList]
      exact (List.prefix_append _ _).isInfix
    rw [List.nil_append, scanLoop, if_pos htag, memory_printed _ hn]
  | cons line before ih =>
    rw [List.forall_mem_cons] at hbefore
    rw [List.cons_append, scanLoop, if_neg hbefore.1, ih hbefore.2]

/-- Both readers find the number that the kernel has printed, whatever stands around it. -/
theorem freeMem_printed {before rest : List String} {spaces n : ℕ}
    (hlines : ∀ line ∈ before ++ memLine spaces n :: rest, IsLine line)
    (hbefore : ∀ line ∈ before, ¬ tag <:+: line.toList) (hn : n < 2 ^ 63)
    (hcontent : content.text = unlines (before ++ memLine spaces n :: rest)) :
    getDBHostFreeMem (.ok content) = .ok (n : Int) ∧
      ∃ rounds, getFreeMemInfoFromProc rounds (some content) = some (.ok (n : Int)) := by
  have hfound : getDBHostFreeMem (.ok content) = .ok (n : Int) := by
    rw [getDBHostFreeMem, hcontent, lines_unlines hlines, scanLoop_printed hbefore hn]
  exact ⟨hfound, getFreeMemInfoFromProc_of_getDBHostFreeMem hfound⟩

def sampleContent : Content where
  text := unlines ["MemFree: 95420 kB", memLine 9 1094508, "Buffers: 0 kB"]
  ascii := by
    have hascii : (unlines ["MemFree: 95420 kB", memLine 9 1094508, "Buffers: 0 kB"]).toList.all
        (fun c => decide (c.toNat < 128)) = true := by decide +kernel
    exact fun c hc => of_decide_eq_true (List.all_eq_true.mp hascii c hc)

theorem freeMem_printed_sample :
    getDBHostFreeMem (.ok sampleContent) = .ok 1094508 ∧
      ∃ rounds, getFreeMemInfoFromProc rounds (some sampleContent) = some (.ok 1094508) := by
  have hlines : ∀ line ∈ ["MemFree: 95420 kB"] ++ memLine 9 1094508 :: ["Buffers: 0 kB"],
      IsLine line := by decide +kernel
  have hbefore : ∀ line ∈ ["MemFree: 95420 kB"], ¬ tag <:+: line.toList := by decide +kernel
  exact freeMem_printed hlines hbefore (by decide) rfl

end Results

end ElCarro.Provision.MemInfo
