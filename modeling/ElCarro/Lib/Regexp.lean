import Mathlib.Data.List.Forall2
import Mathlib.Data.List.Infix

/-! # Regular expressions without alternatives

A pattern is a sequence of pieces, each a character of some class or any number of them, and
some pieces in the middle are captured. The leftmost match is taken, in which every piece
takes as much as it can before the ones behind it. What the pieces of a match may take does
not depend on that, and is often enough to know what is captured.
-/

namespace Regexp

inductive Piece where
  | one (p : Char → Bool)
  | star (p : Char → Bool)

/-- The pieces before the group, those of the group and those behind it. -/
structure Pattern where
  before : List Piece
  group : List Piece
  after : List Piece

def plus (p : Char → Bool) : List Piece := [.one p, .star p]

def literal (text : List Char) : List Piece := text.map fun c => .one (· == c)

def Pattern.pieces (r : Pattern) : List Piece := r.before ++ r.group ++ r.after

section Matching

/-- Take as many characters as the rest of the pattern allows. -/
def matchStar (p : Char → Bool) (rest : List Char → Option (List (List Char))) :
    List Char → Option (List (List Char))
  | [] => (rest []).map ([] :: ·)
  | c :: cs =>
    if p c then
      ((matchStar p rest cs).map (List.modifyHead (c :: ·))).or ((rest (c :: cs)).map ([] :: ·))
    else (rest (c :: cs)).map ([] :: ·)

/-- What each piece takes at the beginning of a text. -/
def matchPieces : List Piece → List Char → Option (List (List Char))
  | [], _ => some []
  | .one _ :: _, [] => none
  | .one p :: ps, c :: cs => if p c then (matchPieces ps cs).map ([c] :: ·) else none
  | .star p :: ps, cs => matchStar p (matchPieces ps) cs

/-- A match has a group and a length. -/
def Pattern.matchAt (r : Pattern) (text : List Char) : Option (List Char × ℕ) :=
  (matchPieces r.pieces text).map fun parts =>
    (((parts.drop r.before.length).take r.group.length).flatten, parts.flatten.length)

/-- The group of the leftmost match. -/
def Pattern.find (r : Pattern) : List Char → Option (List Char)
  | [] => (r.matchAt []).map Prod.fst
  | c :: cs => ((r.matchAt (c :: cs)).map Prod.fst).or (r.find cs)

/-- The groups of all matches, one behind the other; so many characters still belong to the
last one. No match is to be empty. -/
def Pattern.findAll (r : Pattern) : ℕ → List Char → List (List Char)
  | _, [] => []
  | n + 1, _ :: cs => r.findAll n cs
  | 0, c :: cs =>
    match r.matchAt (c :: cs) with
    | some (group, length) => group :: r.findAll (length - 1) cs
    | none => r.findAll 0 cs

end Matching

section Parts

/-- What a piece may take. -/
inductive Piece.Takes : Piece → List Char → Prop
  | one {p : Char → Bool} {c : Char} (h : p c = true) : Takes (.one p) [c]
  | star {p : Char → Bool} {cs : List Char} (h : ∀ c ∈ cs, p c = true) : Takes (.star p) cs

variable {p : Char → Bool} {ps qs : List Piece} {parts : List (List Char)} {text : List Char}

theorem takes_one {part : List Char} :
    (Piece.one p).Takes part ↔ ∃ c, p c = true ∧ part = [c] := by
  constructor
  · rintro ⟨h⟩
    exact ⟨_, h, rfl⟩
  · rintro ⟨c, h, rfl⟩
    exact .one h

theorem takes_star {part : List Char} :
    (Piece.star p).Takes part ↔ ∀ c ∈ part, p c = true := by
  constructor
  · rintro ⟨⟩
    assumption
  · exact .star

/-- A repeated piece takes a part of the text, and the rest of the pattern goes on behind it. -/
theorem matchStar_eq_some {rest : List Char → Option (List (List Char))}
    (h : matchStar p rest text = some parts) :
    ∃ taken tail out, text = taken ++ tail ∧ (∀ c ∈ taken, p c = true) ∧
      rest tail = some out ∧ parts = taken :: out := by
  have hstop : ∀ cs parts, (rest cs).map ([] :: ·) = some parts →
      ∃ taken tail out, cs = taken ++ tail ∧ (∀ c ∈ taken, p c = true) ∧
        rest tail = some out ∧ parts = taken :: out := by
    intro cs parts hmap
    obtain ⟨out, hout, rfl⟩ := Option.map_eq_some_iff.mp hmap
    exact ⟨[], cs, out, rfl, by simp, hout, rfl⟩
  induction text generalizing parts with
  | nil => exact hstop [] parts h
  | cons c cs ih =>
    rw [matchStar] at h
    split at h
    · next hc =>
      rcases Option.or_eq_some_iff.mp h with h | ⟨-, h⟩
      · obtain ⟨more, hmore, rfl⟩ := Option.map_eq_some_iff.mp h
        obtain ⟨taken, tail, out, rfl, htaken, hout, rfl⟩ := ih hmore
        refine ⟨c :: taken, tail, out, rfl, ?_, hout, rfl⟩
        intro d hd
        rcases List.mem_cons.mp hd with rfl | hd
        · exact hc
        · exact htaken d hd
      · exact hstop (c :: cs) parts h
    · exact hstop (c :: cs) parts h

/-- The parts of a match are taken by their pieces. -/
theorem matchPieces_sound (h : matchPieces ps text = some parts) :
    List.Forall₂ Piece.Takes ps parts ∧ parts.flatten <+: text := by
  induction ps generalizing text parts with
  | nil =>
    cases h
    exact ⟨.nil, List.nil_prefix⟩
  | cons piece ps ih =>
    cases piece with
    | one p =>
      cases text with
      | nil => cases h
      | cons c cs =>
        rw [matchPieces] at h
        split at h
        · next hc =>
          obtain ⟨tail, htail, rfl⟩ := Option.map_eq_some_iff.mp h
          obtain ⟨htakes, hpre⟩ := ih htail
          exact ⟨.cons (.one hc) htakes, by simpa using hpre⟩
        · cases h
    | star p =>
      obtain ⟨taken, tail, out, rfl, htaken, hout, rfl⟩ := matchStar_eq_some h
      obtain ⟨htakes, hpre⟩ := ih hout
      exact ⟨.cons (.star htaken) htakes, List.prefix_append_right_inj _ |>.mpr hpre⟩

theorem isSome_matchStar {rest : List Char → Option (List (List Char))} {taken tail : List Char}
    (htaken : ∀ c ∈ taken, p c = true) (hrest : (rest tail).isSome) :
    (matchStar p rest (taken ++ tail)).isSome := by
  induction taken with
  | nil =>
    cases tail with
    | nil => simpa [matchStar] using hrest
    | cons c cs =>
      rw [List.nil_append, matchStar]
      split <;> simp [hrest]
  | cons c cs ih =>
    have hc : p c = true := htaken c List.mem_cons_self
    have hcs := ih fun d hd => htaken d (List.mem_cons_of_mem c hd)
    rw [List.cons_append, matchStar, if_pos hc]
    simp [hcs]

/-- Where the pieces can take their parts there is a match. -/
theorem isSome_matchPieces (htakes : List.Forall₂ Piece.Takes ps parts)
    (hpre : parts.flatten <+: text) : (matchPieces ps text).isSome := by
  obtain ⟨tail, rfl⟩ := hpre
  induction htakes with
  | nil => rfl
  | @cons piece part ps parts hpart _ ih =>
    rw [List.flatten_cons, List.append_assoc]
    cases hpart with
    | one h => simpa [matchPieces, h] using ih
    | star h => exact isSome_matchStar h ih

/-- The last piece takes everything that it can. -/
theorem matchStar_nil :
    matchStar p (matchPieces []) text = some [text.takeWhile p] := by
  induction text with
  | nil => rfl
  | cons c cs ih =>
    rw [matchStar, ih]
    split
    · next hc => simp [hc]
    · next hc => simp [matchPieces, hc]

theorem head?_drop_takeWhile :
    ∀ c ∈ (text.drop (text.takeWhile p).length).head?, p c = false := by
  induction text with
  | nil => simp
  | cons c cs ih =>
    by_cases hc : p c = true
    · simpa [hc] using ih
    · simp [hc]

/-- Nothing that the last piece could still take follows a match. -/
theorem matchPieces_ends (h : matchPieces (ps ++ [.star p]) text = some parts) :
    ∀ c ∈ (text.drop parts.flatten.length).head?, p c = false := by
  induction ps generalizing text parts with
  | nil =>
    rw [List.nil_append, matchPieces, matchStar_nil] at h
    cases h
    rw [List.flatten_singleton]
    exact head?_drop_takeWhile
  | cons piece ps ih =>
    cases piece with
    | one q =>
      cases text with
      | nil => cases h
      | cons c cs =>
        rw [List.cons_append, matchPieces] at h
        split at h
        · obtain ⟨tail, htail, rfl⟩ := Option.map_eq_some_iff.mp h
          simpa using ih htail
        · cases h
    | star q =>
      obtain ⟨taken, tail, out, rfl, -, hout, rfl⟩ := matchStar_eq_some h
      simpa [List.drop_append] using ih hout

theorem forall₂_literal {lit : List Char} :
    List.Forall₂ Piece.Takes (literal lit) parts ↔ parts = lit.map ([·]) := by
  induction lit generalizing parts with
  | nil => simp [literal]
  | cons c lit ih =>
    rw [literal, List.map_cons, List.forall₂_cons_left_iff]
    constructor
    · rintro ⟨part, rest, hpart, hrest, rfl⟩
      obtain ⟨d, hd, rfl⟩ := takes_one.mp hpart
      obtain rfl : d = c := by simpa using hd
      rw [ih.mp hrest, List.map_cons]
    · rintro rfl
      exact ⟨[c], lit.map ([·]), takes_one.mpr ⟨c, by simp, rfl⟩, ih.mpr rfl, rfl⟩

theorem forall₂_plus :
    List.Forall₂ Piece.Takes (plus p) parts ↔
      ∃ c cs, parts = [[c], cs] ∧ p c = true ∧ ∀ d ∈ cs, p d = true := by
  constructor
  · rintro (_ | ⟨hone, _ | ⟨hstar, _ | _⟩⟩)
    obtain ⟨c, hc, rfl⟩ := takes_one.mp hone
    exact ⟨c, _, rfl, hc, takes_star.mp hstar⟩
  · rintro ⟨c, cs, rfl, hc, hcs⟩
    exact .cons (.one hc) (.cons (.star hcs) .nil)

end Parts

section Texts

variable {p : Char → Bool} {ps qs : List Piece} {text : List Char}

/-- The pieces can take the whole text, and no more. -/
def Taken (ps : List Piece) (text : List Char) : Prop :=
  ∃ parts, List.Forall₂ Piece.Takes ps parts ∧ parts.flatten = text

theorem taken_nil : Taken [] text ↔ text = [] := by
  constructor
  · rintro ⟨parts, hparts, rfl⟩
    cases hparts
    rfl
  · rintro rfl
    exact ⟨[], .nil, rfl⟩

theorem forall₂_append_left {parts : List (List Char)}
    (h : List.Forall₂ Piece.Takes (ps ++ qs) parts) :
    List.Forall₂ Piece.Takes ps (parts.take ps.length) ∧
      List.Forall₂ Piece.Takes qs (parts.drop ps.length) :=
  ⟨(List.forall₂_take_append parts ps qs h.flip).flip,
    (List.forall₂_drop_append parts ps qs h.flip).flip⟩

theorem taken_append :
    Taken (ps ++ qs) text ↔ ∃ u v, Taken ps u ∧ Taken qs v ∧ text = u ++ v := by
  constructor
  · rintro ⟨parts, hparts, rfl⟩
    obtain ⟨hps, hqs⟩ := forall₂_append_left hparts
    exact ⟨_, _, ⟨_, hps, rfl⟩, ⟨_, hqs, rfl⟩, by rw [← List.flatten_append, List.take_append_drop]⟩
  · rintro ⟨_, _, ⟨us, hus, rfl⟩, ⟨vs, hvs, rfl⟩, rfl⟩
    exact ⟨us ++ vs, List.rel_append hus hvs, List.flatten_append⟩

theorem taken_star : Taken [.star p] text ↔ ∀ c ∈ text, p c = true := by
  constructor
  · rintro ⟨parts, _ | ⟨hpart, _ | _⟩, rfl⟩
    simpa using takes_star.mp hpart
  · intro h
    exact ⟨[text], .cons (.star h) .nil, by simp⟩

theorem taken_literal {lit : List Char} : Taken (literal lit) text ↔ text = lit := by
  constructor
  · rintro ⟨parts, hparts, rfl⟩
    rw [forall₂_literal.mp hparts, ← List.flatMap_def, List.flatMap_singleton']
  · rintro rfl
    exact ⟨_, forall₂_literal.mpr rfl, by rw [← List.flatMap_def, List.flatMap_singleton']⟩

theorem taken_plus : Taken (plus p) text ↔ text ≠ [] ∧ ∀ c ∈ text, p c = true := by
  constructor
  · rintro ⟨parts, hparts, rfl⟩
    obtain ⟨c, cs, rfl, hc, hcs⟩ := forall₂_plus.mp hparts
    simpa using ⟨hc, hcs⟩
  · rintro ⟨hne, h⟩
    obtain ⟨c, cs, rfl⟩ := List.exists_cons_of_ne_nil hne
    have hboth : p c = true ∧ ∀ d ∈ cs, p d = true := by simpa using h
    exact ⟨[[c], cs], forall₂_plus.mpr ⟨c, cs, rfl, hboth⟩, by simp⟩

end Texts

section Spans

variable {p : Char → Bool} {u v x y : List Char}

theorem takeWhile_append_of_ends (hu : ∀ c ∈ u, p c = true) (hx : ∀ c ∈ x.head?, p c = false) :
    (u ++ x).takeWhile p = u := by
  rw [List.takeWhile_append_of_pos hu]
  cases x with
  | nil => simp
  | cons c x => simp [hx c rfl]

/-- Two ways to cut a text where the characters of a class end are the same. -/
theorem span_inj (hu : ∀ c ∈ u, p c = true) (hx : ∀ c ∈ x.head?, p c = false)
    (hv : ∀ c ∈ v, p c = true) (hy : ∀ c ∈ y.head?, p c = false) (h : u ++ x = v ++ y) :
    u = v ∧ x = y := by
  have huv : u = v := by
    rw [← takeWhile_append_of_ends hu hx, h, takeWhile_append_of_ends hv hy]
  exact ⟨huv, List.append_cancel_left (huv ▸ h)⟩

end Spans

section Search

variable {r : Pattern} {text group : List Char} {n : ℕ}

/-- The parts of the text that belong to a match with this group. -/
structure Pattern.Splits (r : Pattern) (text before group after tail : List Char) : Prop where
  takesBefore : Taken r.before before
  takesGroup : Taken r.group group
  takesAfter : Taken r.after after
  eq : text = before ++ (group ++ (after ++ tail))

theorem Pattern.splits_of_matchAt (h : r.matchAt text = some (group, n)) :
    ∃ before after tail, r.Splits text before group after tail ∧
      n = (before ++ (group ++ after)).length := by
  obtain ⟨parts, hparts, heq⟩ := Option.map_eq_some_iff.mp h
  obtain ⟨htakes, tail, rfl⟩ := matchPieces_sound hparts
  obtain ⟨rfl, rfl⟩ := Prod.mk.inj heq
  rw [Pattern.pieces, List.append_assoc] at htakes
  obtain ⟨hbefore, hrest⟩ := forall₂_append_left htakes
  obtain ⟨hgroup, hafter⟩ := forall₂_append_left hrest
  have hsplit : parts.flatten = (parts.take r.before.length).flatten ++
      (((parts.drop r.before.length).take r.group.length).flatten ++
        ((parts.drop r.before.length).drop r.group.length).flatten) := by
    rw [← List.flatten_append, List.take_append_drop, ← List.flatten_append, List.take_append_drop]
  refine ⟨_, _, tail, ⟨⟨_, hbefore, rfl⟩, ⟨_, hgroup, rfl⟩, ⟨_, hafter, rfl⟩, ?_⟩, ?_⟩
  · rw [hsplit, List.append_assoc, List.append_assoc]
  · rw [hsplit]

theorem Pattern.Splits.isSome_matchAt {before after tail : List Char}
    (h : r.Splits text before group after tail) : (r.matchAt text).isSome := by
  obtain ⟨⟨bs, hbs, rfl⟩, ⟨gs, hgs, rfl⟩, ⟨as, has, rfl⟩, rfl⟩ := h
  have htakes : List.Forall₂ Piece.Takes r.pieces (bs ++ gs ++ as) :=
    List.rel_append (List.rel_append hbs hgs) has
  rw [Pattern.matchAt, Option.isSome_map]
  exact isSome_matchPieces htakes ⟨tail, by simp [List.append_assoc]⟩

theorem Pattern.matchAt_eq_none_iff :
    r.matchAt text = none ↔ ∀ before group after tail, ¬ r.Splits text before group after tail := by
  constructor
  · intro h before group after tail hsplits
    have hsome := hsplits.isSome_matchAt
    rw [h] at hsome
    cases hsome
  · intro h
    cases hm : r.matchAt text with
    | none => rfl
    | some m =>
      obtain ⟨group, n⟩ := m
      obtain ⟨before, after, tail, hsplits, -⟩ := Pattern.splits_of_matchAt hm
      exact absurd hsplits (h before group after tail)

variable {head tail : List Char}

/-- No match begins in the head of the text. -/
def Pattern.Barren (r : Pattern) (head tail : List Char) : Prop :=
  ∀ u v, head = u ++ v → v ≠ [] → r.matchAt (v ++ tail) = none

theorem Pattern.Barren.of_cons {c : Char} (h : r.Barren (c :: head) tail) : r.Barren head tail :=
  fun u v hhead hv => h (c :: u) v (by rw [hhead, List.cons_append]) hv

theorem Pattern.find_append_of_barren (h : r.Barren head tail) :
    r.find (head ++ tail) = r.find tail := by
  induction head with
  | nil => rfl
  | cons c cs ih =>
    have hc : r.matchAt (c :: (cs ++ tail)) = none := h [] (c :: cs) rfl (List.cons_ne_nil c cs)
    rw [List.cons_append, Pattern.find, hc]
    exact ih h.of_cons

theorem Pattern.findAll_append_of_barren (h : r.Barren head tail) :
    r.findAll 0 (head ++ tail) = r.findAll 0 tail := by
  induction head with
  | nil => rfl
  | cons c cs ih =>
    have hc : r.matchAt (c :: (cs ++ tail)) = none := h [] (c :: cs) rfl (List.cons_ne_nil c cs)
    rw [List.cons_append, Pattern.findAll, hc]
    exact ih h.of_cons

theorem Pattern.find_of_matchAt (h : r.matchAt text = some (group, n)) :
    r.find text = some group := by
  cases text <;> simp [Pattern.find, h]

theorem Pattern.find_eq_head? (hnil : r.matchAt [] = none) (text : List Char) :
    r.find text = (r.findAll 0 text).head? := by
  induction text with
  | nil => simp [Pattern.find, Pattern.findAll, hnil]
  | cons c cs ih =>
    rw [Pattern.find, Pattern.findAll]
    cases r.matchAt (c :: cs) with
    | none => exact ih
    | some m => rfl

/-- A pattern that ends with a repeated piece leaves nothing behind that the piece takes. -/
theorem Pattern.matchAt_ends {ps : List Piece} {p : Char → Bool}
    (hpieces : r.pieces = ps ++ [.star p]) (h : r.matchAt text = some (group, n)) :
    ∀ c ∈ (text.drop n).head?, p c = false := by
  obtain ⟨parts, hparts, heq⟩ := Option.map_eq_some_iff.mp h
  obtain ⟨-, rfl⟩ := Prod.mk.inj heq
  rw [hpieces] at hparts
  exact matchPieces_ends hparts

theorem Pattern.findAll_length (head tail : List Char) :
    r.findAll head.length (head ++ tail) = r.findAll 0 tail := by
  induction head with
  | nil => rfl
  | cons c cs ih => exact ih

theorem Pattern.findAll_of_matchAt (hne : head ≠ [])
    (h : r.matchAt (head ++ tail) = some (group, head.length)) :
    r.findAll 0 (head ++ tail) = group :: r.findAll 0 tail := by
  obtain ⟨c, cs, rfl⟩ := List.exists_cons_of_ne_nil hne
  rw [List.cons_append, Pattern.findAll]
  rw [List.cons_append] at h
  rw [h]
  exact congrArg (group :: ·) (Pattern.findAll_length cs tail)

end Search

end Regexp
