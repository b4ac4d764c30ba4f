import Mathlib.Data.List.Basic
import Mathlib.Data.List.Infix

/-! # Slash separated paths

Lexical processing of paths, over any alphabet with a separator and a dot: a path is cut
into its parts, empty parts and single dots disappear, and a pair of dots takes back the
part before it. Nothing here looks at a file system.
-/

namespace SlashPath

class Alphabet (α : Type*) where
  sep : α
  dot : α
  dot_ne_sep : dot ≠ sep

instance : Alphabet Char := ⟨'/', '.', by decide⟩

open Alphabet

variable {α : Type*} [DecidableEq α] [Alphabet α]

/-- Whether a path starts at the root, and its parts. -/
structure Parts (α : Type*) where
  rooted : Bool
  parts : List (List α)
  deriving DecidableEq

def self : List α := [dot]
def parent : List α := [dot, dot]

/-- What a pair of dots makes of the parts before it, the last one first. -/
def ascend (rooted : Bool) : List (List α) → List (List α)
  | top :: rest => if top = parent then parent :: top :: rest else rest
  | [] => if rooted then [] else [parent]

/-- The parts that remain of a path, the last one first, after those that are kept already. -/
def reduce (rooted : Bool) : List (List α) → List (List α) → List (List α)
  | [], kept => kept
  | part :: parts, kept =>
    if part = [] ∨ part = self then reduce rooted parts kept
    else if part = parent then reduce rooted parts (ascend rooted kept)
    else reduce rooted parts (part :: kept)

def parse (s : List α) : Parts α :=
  let rooted := s.head? = some sep
  ⟨rooted, (reduce rooted (s.splitOn sep) []).reverse⟩

/-- The parts with separators between them. -/
def glue (parts : List (List α)) : List α := [sep].intercalate parts

def Parts.render (p : Parts α) : List α :=
  if p.rooted then sep :: glue p.parts
  else if p.parts = [] then self
  else glue p.parts

/-- `Clean`: the shortest path that names the same place. -/
def clean (s : List α) : List α := (parse s).render

/-- `Join` of two paths. -/
def join (a b : List α) : List α :=
  if a = [] then (if b = [] then [] else clean b) else clean (a ++ sep :: b)

/-- `Base`: the last element of a path, without separators behind it. -/
def base (s : List α) : List α :=
  if s = [] then self
  else
    let last := ((s.reverse.dropWhile (· = sep)).takeWhile (· ≠ sep)).reverse
    if last = [] then [sep] else last

/-- Both lists without the parts that they begin with in common. -/
def dropCommon : List (List α) → List (List α) → List (List α) × List (List α)
  | a :: as, b :: bs => if a = b then dropCommon as bs else (a :: as, b :: bs)
  | as, bs => (as, bs)

/-- `Rel`: how to get from one path to the other, when that can be told. -/
def rel (base targ : List α) : Option (List α) :=
  let b := parse base
  let t := parse targ
  if t = b then some self
  else if b.rooted ≠ t.rooted then none
  else
    let targParts := if ¬ t.rooted ∧ t.parts = [] then [self] else t.parts
    let (up, down) := dropCommon b.parts targParts
    if up.head? = some parent then none
    else some (glue (up.map (fun _ => parent) ++ down))

/-- The name of a file or directory. -/
structure Plain (part : List α) : Prop where
  ne_nil : part ≠ []
  ne_self : part ≠ self
  ne_parent : part ≠ parent
  sep_notMem : sep ∉ part

instance (part : List α) : Decidable (Plain part) :=
  decidable_of_iff (part ≠ [] ∧ part ≠ self ∧ part ≠ parent ∧ sep ∉ part)
    ⟨fun ⟨h₁, h₂, h₃, h₄⟩ => ⟨h₁, h₂, h₃, h₄⟩, fun h => ⟨h.1, h.2, h.3, h.4⟩⟩

section Reduce

variable {rooted : Bool} {parts more kept : List (List α)}

theorem reduce_append : reduce rooted (parts ++ more) kept =
    reduce rooted more (reduce rooted parts kept) := by
  induction parts generalizing kept with
  | nil => rfl
  | cons part parts ih =>
    simp only [List.cons_append, reduce]
    split
    · exact ih
    · split
      · exact ih
      · exact ih

/-- Names are kept as they are. -/
theorem reduce_plain (h : ∀ part ∈ parts, Plain part) :
    reduce rooted parts kept = parts.reverse ++ kept := by
  induction parts generalizing kept with
  | nil => rfl
  | cons part parts ih =>
    have hpart := h part List.mem_cons_self
    rw [reduce, if_neg (not_or.mpr ⟨hpart.ne_nil, hpart.ne_self⟩), if_neg hpart.ne_parent,
      ih fun p hp => h p (List.mem_cons_of_mem _ hp)]
    simp

end Reduce

section Parse

variable {s : List α} {parts : List (List α)}

theorem splitOn_glue (h : ∀ part ∈ parts, Plain part) (hne : parts ≠ []) :
    (glue parts).splitOn sep = parts :=
  List.splitOn_intercalate sep (fun part hpart => (h part hpart).sep_notMem) hne

omit [DecidableEq α] in
theorem head?_glue (h : ∀ part ∈ parts, Plain part) : (glue parts).head? ≠ some sep := by
  cases parts with
  | nil => simp [glue]
  | cons part parts =>
    have hpart := h part List.mem_cons_self
    cases part with
    | nil => exact absurd rfl hpart.ne_nil
    | cons c rest =>
      have hc : c ≠ sep := fun heq => hpart.sep_notMem (heq ▸ List.mem_cons_self)
      cases parts with
      | nil => simpa [glue] using hc
      | cons next parts => simpa [glue, List.intercalate_cons_cons] using hc

theorem parse_glue (h : ∀ part ∈ parts, Plain part) : parse (glue parts) = ⟨false, parts⟩ := by
  cases parts with
  | nil => simp [parse, glue, reduce]
  | cons part parts =>
    have hroot := head?_glue h
    simp only [parse, splitOn_glue h (by simp), hroot, decide_false, reduce_plain h,
      List.append_nil, List.reverse_reverse]

theorem glue_ne_nil (h : ∀ part ∈ parts, Plain part) (hne : parts ≠ []) : glue parts ≠ [] := by
  intro hglue
  have hsplit := splitOn_glue h hne
  rw [hglue, List.splitOn_nil] at hsplit
  exact (h [] (by simp [← hsplit])).ne_nil rfl

omit [DecidableEq α] in
theorem glue_append {more : List (List α)} (hne : parts ≠ []) (hmore : more ≠ []) :
    glue (parts ++ more) = glue parts ++ sep :: glue more := by
  induction parts with
  | nil => exact absurd rfl hne
  | cons part parts ih =>
    cases parts with
    | nil => simp [glue, List.intercalate_cons_of_ne_nil hmore]
    | cons next parts =>
      have hrest := ih (by simp)
      simp only [glue, List.cons_append, List.intercalate_cons_cons] at hrest ⊢
      rw [hrest]
      simp

/-- A path below another one. -/
theorem parse_append_glue (hs : s ≠ []) (h : ∀ part ∈ parts, Plain part) (hne : parts ≠ []) :
    parse (s ++ sep :: glue parts) = ⟨(parse s).rooted, (parse s).parts ++ parts⟩ := by
  have hroot : (s ++ sep :: glue parts).head? = s.head? := by
    cases s with
    | nil => exact absurd rfl hs
    | cons c s => rfl
  simp only [parse, hroot, List.splitOn_append_cons_self, reduce_append, splitOn_glue h hne,
    reduce_plain h]
  simp

/-- An empty path below another one is the same place. -/
theorem parse_append_sep (hs : s ≠ []) : parse (s ++ [sep]) = parse s := by
  have hroot : (s ++ [sep]).head? = s.head? := by
    cases s with
    | nil => exact absurd rfl hs
    | cons c s => rfl
  simp only [parse, hroot, List.splitOn_append_cons_self, reduce_append, List.splitOn_nil]
  simp [reduce]

theorem parse_sep_glue (h : ∀ part ∈ parts, Plain part) :
    parse (sep :: glue parts) = ⟨true, parts⟩ := by
  have hsplit : (sep :: glue parts).splitOn sep = [] :: (glue parts).splitOn sep := by
    rw [List.splitOn_cons_eq_if_modifyHead]
    simp
  simp only [parse, hsplit, List.head?_cons, decide_true, reduce, true_or, if_true]
  cases parts with
  | nil => simp [glue, reduce]
  | cons part parts =>
    rw [splitOn_glue h (by simp), reduce_plain h]
    simp

theorem notMem_of_mem_splitOn {part : List α} (h : part ∈ s.splitOn sep) : sep ∉ part := by
  induction s generalizing part with
  | nil =>
    obtain rfl : part = [] := by simpa using h
    simp
  | cons c s ih =>
    rw [List.splitOn_cons_eq_if_modifyHead] at h
    split at h
    · rcases List.mem_cons.mp h with rfl | h
      · simp
      · exact ih h
    · next hc =>
      cases hsplit : s.splitOn sep with
      | nil => exact absurd hsplit (List.splitOn_ne_nil sep s)
      | cons first rest =>
        rw [hsplit] at h ih
        rcases List.mem_cons.mp h with rfl | h
        · have hfirst := ih List.mem_cons_self
          simp only [List.mem_cons, not_or]
          exact ⟨fun heq => hc (by simp [heq]), hfirst⟩
        · exact ih (List.mem_cons_of_mem _ h)

/-- From the root on, what remains of a path are names. -/
theorem plain_of_mem_reduce {kept : List (List α)} (hparts : ∀ part ∈ parts, sep ∉ part)
    (hkept : ∀ part ∈ kept, Plain part) : ∀ part ∈ reduce true parts kept, Plain part := by
  induction parts generalizing kept with
  | nil => exact hkept
  | cons part parts ih =>
    have hrest : ∀ p ∈ parts, sep ∉ p := fun p hp => hparts p (List.mem_cons_of_mem _ hp)
    rw [reduce]
    split
    · exact ih hrest hkept
    · next hempty =>
      rw [not_or] at hempty
      split
      · apply ih hrest
        intro p hp
        cases kept with
        | nil => cases hp
        | cons top kept =>
          have htop := (hkept top List.mem_cons_self).ne_parent
          rw [ascend, if_neg htop] at hp
          exact hkept p (List.mem_cons_of_mem _ hp)
      · next hparent =>
        apply ih hrest
        intro p hp
        rcases List.mem_cons.mp hp with rfl | hp
        · exact ⟨hempty.1, hempty.2, hparent, hparts p List.mem_cons_self⟩
        · exact hkept p hp

theorem plain_of_rooted (h : s.head? = some sep) : ∀ part ∈ (parse s).parts, Plain part := by
  intro part hpart
  simp only [parse, h, decide_true, List.mem_reverse] at hpart
  exact plain_of_mem_reduce (fun _ => notMem_of_mem_splitOn) (by simp) part hpart

/-- A path joined below a rooted one. -/
theorem join_eq (hs : s.head? = some sep) (h : ∀ part ∈ parts, Plain part) (hne : parts ≠ []) :
    join s (glue parts) = sep :: glue ((parse s).parts ++ parts) := by
  have hs' : s ≠ [] := by
    rintro rfl
    cases hs
  have hrooted : (parse s).rooted = true := by simp [parse, hs]
  rw [join, if_neg hs', clean, parse_append_glue hs' h hne, hrooted]
  rfl

theorem parse_join (hs : s.head? = some sep) (h : ∀ part ∈ parts, Plain part) (hne : parts ≠ []) :
    parse (join s (glue parts)) = ⟨true, (parse s).parts ++ parts⟩ := by
  rw [join_eq hs h hne]
  apply parse_sep_glue
  intro part hpart
  rcases List.mem_append.mp hpart with hpart | hpart
  · exact plain_of_rooted hs part hpart
  · exact h part hpart

/-- Files of different names in one directory are different files. -/
theorem join_injective {name name' : List α} (hs : s.head? = some sep) (h : Plain name)
    (h' : Plain name') (heq : join s name = join s name') : name = name' := by
  have hglue : ∀ part : List α, glue [part] = part := fun part => by simp [glue]
  have hparse : ∀ {part : List α}, Plain part →
      parse (join s part) = ⟨true, (parse s).parts ++ [part]⟩ := by
    intro part hpart
    have hjoin : parse (join s (glue [part])) = ⟨true, (parse s).parts ++ [part]⟩ :=
      parse_join hs (by simpa using hpart) (List.cons_ne_nil _ _)
    rwa [hglue] at hjoin
  have hparts := (hparse h).symm.trans ((congrArg parse heq).trans (hparse h'))
  simpa using hparts

omit [Alphabet α] in
theorem dropCommon_append (base parts : List (List α)) :
    dropCommon base (base ++ parts) = ([], parts) := by
  induction base with
  | nil => cases parts <;> rfl
  | cons part base ih => simp [dropCommon, ih]

/-- From a path to one below it. -/
theorem rel_below {base targ : List α} {above : List (List α)} {rooted : Bool}
    (hbase : parse base = ⟨rooted, above⟩) (htarg : parse targ = ⟨rooted, above ++ parts⟩)
    (hne : parts ≠ []) : rel base targ = some (glue parts) := by
  have hdiff : (⟨rooted, above ++ parts⟩ : Parts α) ≠ ⟨rooted, above⟩ := by
    intro heq
    exact hne (by simpa using congrArg Parts.parts heq)
  have hempty : above ++ parts ≠ [] := by simp [hne]
  simp only [rel, hbase, htarg, if_neg hdiff, ne_eq, not_true_eq_false, if_false, hempty,
    and_false, dropCommon_append]
  simp

end Parse

end SlashPath
