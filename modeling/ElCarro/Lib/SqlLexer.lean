import Mathlib.Data.String.Basic
import Mathlib.Data.List.Basic

/-! # Tokens of a statement

A statement is read as words, identifiers in double quotes, literals in single quotes and
other signs. Blanks and comments separate them. Nothing ends an identifier but a double
quote, and a single quote is written twice in a literal.
-/

namespace SqlLexer

section Escapes

open String.Slice.Pattern String.Slice.Pattern.Model

/-- Every occurrence of one character is replaced. -/
def replaceChar (c : Char) (r cs : List Char) : List Char :=
  cs.flatMap fun d => if d = c then r else [d]

/-- What `replace` does with a step of its search. -/
def replaceStep (r : String) {s : String.Slice} (sofar : String) : SearchStep s → String
  | .matched .. => sofar ++ r.toSlice
  | .rejected start stop => sofar ++ s.slice! start stop

theorem replaceChar_of_notMem {c : Char} {r cs : List Char} (h : c ∉ cs) :
    replaceChar c r cs = cs := by
  induction cs with
  | nil => rfl
  | cons d cs ih =>
    rw [List.mem_cons, not_or] at h
    rw [replaceChar, List.flatMap_cons, if_neg (Ne.symm h.1)]
    exact congrArg (d :: ·) (ih h.2)

theorem replace_eq_foldl (s pat r : String) : s.replace pat r =
    (ToForwardSearcher.toSearcher pat s.toSlice).toList.foldl (replaceStep r) "" := by
  rw [Std.Iter.foldl_toList]
  unfold String.replace String.Slice.replace
  congr 1
  funext sofar st
  cases st <;> rfl

theorem notMem_of_rejected {c : Char} {s : String.Slice} {start stop : s.Pos} {t₁ t₂ t₃ : String}
    (hstart : start.Splits t₁ (t₂ ++ t₃)) (hstop : stop.Splits (t₁ ++ t₂) t₃)
    (h : ∀ pos, start ≤ pos → pos < stop → ¬ MatchesAt (String.singleton c) pos) :
    c ∉ t₂.toList := by
  intro hc
  obtain ⟨u, v, huv⟩ := List.append_of_mem hc
  have ht₂ : t₂ = String.ofList u ++ (String.singleton c ++ String.ofList v) := by
    rw [← String.toList_inj, huv]
    simp
  have hcopy : s.copy =
      (t₁ ++ String.ofList u) ++ (String.singleton c ++ (String.ofList v ++ t₃)) := by
    rw [hstart.eq_append, ht₂]
    simp only [String.append_assoc]
  have hpos := String.Slice.Pos.splits_ofEqAppend hcopy
  refine h _ ?_ ?_ (ForwardStringSearcher.matchesAt_iff_splits.mpr ⟨_, _, hpos⟩)
  · rw [hstart.le_iff_exists_eq_append hpos]
    refine ⟨String.ofList u, rfl, ?_⟩
    rw [ht₂]
    simp only [String.append_assoc]
  · rw [hpos.lt_iff_exists_eq_append hstop]
    refine ⟨String.singleton c ++ String.ofList v, by simp, ?_, ?_⟩
    · rw [ht₂]
      simp only [String.append_assoc]
    · simp only [String.append_assoc]

theorem toList_foldl_replaceStep {c : Char} {r : String} {s : String.Slice} {pos : s.Pos}
    {steps : List (SearchStep s)} (h : IsValidSearchFrom (String.singleton c) pos steps)
    {t₁ t₂ : String} (hpos : pos.Splits t₁ t₂) (sofar : String) :
    (steps.foldl (replaceStep r) sofar).toList =
      sofar.toList ++ replaceChar c r.toList t₂.toList := by
  induction h generalizing t₁ t₂ sofar with
  | endPos =>
    obtain ⟨-, rfl⟩ := String.Slice.splits_endPos_iff.mp hpos
    simp [replaceChar]
  | @matched l start stop hmatch _ ih =>
    obtain ⟨u₁, u₂, hstart, hstop⟩ := ForwardStringSearcher.isLongestMatchAt_iff_splits.mp hmatch
    obtain ⟨rfl, rfl⟩ := hpos.eq hstart
    rw [List.foldl_cons, ih hstop]
    simp [replaceStep, replaceChar]
  | @mismatched l start stop hlt hno _ ih =>
    have hle := Std.le_of_lt hlt
    obtain ⟨u₁, u₂, hstart, hstop⟩ := String.Slice.copy_slice_eq_iff_splits.mp ⟨hle, rfl⟩
    obtain ⟨rfl, rfl⟩ := hpos.eq hstart
    rw [List.foldl_cons, ih hstop]
    have hslice : s.slice! start stop = s.slice start stop hle := dif_pos hle
    have hmid := @replaceChar_of_notMem _ r.toList _ (notMem_of_rejected hstart hstop hno)
    simp only [replaceStep, hslice, String.toList_append, replaceChar, List.flatMap_append]
      at hmid ⊢
    rw [hmid]
    simp

theorem toList_replace_singleton (s r : String) (c : Char) :
    (s.replace (String.singleton c) r).toList = replaceChar c r.toList s.toList := by
  have hne : String.singleton c ≠ "" := by simp
  have hvalid := (ForwardStringSearcher.lawfulToForwardSearcherModel hne).isValidSearchFrom_toList
    s.toSlice
  rw [replace_eq_foldl, toList_foldl_replaceStep hvalid (String.Slice.splits_startPos _)]
  simp

/-- A single quote is written twice. -/
def escape (cs : List Char) : List Char := replaceChar '\'' ['\'', '\''] cs

theorem mem_of_mem_escape {c : Char} {cs : List Char} (h : c ∈ escape cs) : c ∈ cs := by
  obtain ⟨d, hd, hc⟩ := List.mem_flatMap.mp h
  split at hc
  next hquote =>
    have heq : c = '\'' := by simpa using hc
    rwa [heq, ← hquote]
  next => rwa [List.mem_singleton.mp hc]

end Escapes

section Lexer

/-- The letters that a character set has for words. -/
structure Alphabet where
  letter : Char → Bool
  ascii : ∀ c, c.toNat < 128 → letter c = c.isAlpha

/-- The alphabet without any other letters. -/
def Alphabet.basic : Alphabet where
  letter c := c.isAlpha
  ascii _ _ := rfl

inductive Token where
  | word (cs : List Char)
  | quoted (cs : List Char)
  | literal (cs : List Char)
  | symbol (c : Char)
  deriving DecidableEq, Repr

/-- How far a token or a comment has been read. -/
inductive State where
  | between
  | word (cs : List Char)
  | quoted (cs : List Char)
  | literal (cs : List Char)
  /-- After a quote that ends the literal, unless another one follows. -/
  | closing (cs : List Char)
  | dash
  | lineComment
  | slash
  | blockComment
  | star
  deriving DecidableEq, Repr

variable (a : Alphabet)

namespace Alphabet

def isWord (c : Char) : Bool := a.letter c || c.isDigit || c = '_' || c = '$' || c = '#'

/-- What begins with a character that belongs to no token yet. -/
def start (c : Char) : State × List Token :=
  if c.isWhitespace then (.between, [])
  else if a.isWord c then (.word [c], [])
  else if c = '"' then (.quoted [], [])
  else if c = '\'' then (.literal [], [])
  else if c = '-' then (.dash, [])
  else if c = '/' then (.slash, [])
  else (.between, [.symbol c])

/-- A token ends before the character. -/
def startAfter (t : Token) (c : Char) : State × List Token := ((a.start c).1, t :: (a.start c).2)

def next : State → Char → State × List Token
  | .between, c => a.start c
  | .word cs, c => if a.isWord c then (.word (cs ++ [c]), []) else a.startAfter (.word cs) c
  | .quoted cs, c => if c = '"' then (.between, [.quoted cs]) else (.quoted (cs ++ [c]), [])
  | .literal cs, c => if c = '\'' then (.closing cs, []) else (.literal (cs ++ [c]), [])
  | .closing cs, c =>
    if c = '\'' then (.literal (cs ++ ['\'']), []) else a.startAfter (.literal cs) c
  | .dash, c => if c = '-' then (.lineComment, []) else a.startAfter (.symbol '-') c
  | .lineComment, c => if c = '\n' then (.between, []) else (.lineComment, [])
  | .slash, c => if c = '*' then (.blockComment, []) else a.startAfter (.symbol '/') c
  | .blockComment, c => if c = '*' then (.star, []) else (.blockComment, [])
  | .star, c =>
    if c = '/' then (.between, []) else if c = '*' then (.star, []) else (.blockComment, [])

def scan : State → List Char → State × List Token
  | s, [] => (s, [])
  | s, c :: cs => ((scan (a.next s c).1 cs).1, (a.next s c).2 ++ (scan (a.next s c).1 cs).2)

end Alphabet

/-- What the end of the text adds; nothing may be left open there. -/
def State.finish : State → Option (List Token)
  | .between | .lineComment => some []
  | .word cs => some [.word cs]
  | .closing cs => some [.literal cs]
  | .dash => some [.symbol '-']
  | .slash => some [.symbol '/']
  | .quoted _ | .literal _ | .blockComment | .star => none

/-- The tokens of a text, if it ends as a statement can. -/
def Alphabet.tokens (cs : List Char) : Option (List Token) :=
  ((a.scan .between cs).1.finish).map ((a.scan .between cs).2 ++ ·)

end Lexer

section Scanning

variable {a : Alphabet}

theorem scan_append {s t u : State} {xs ys : List Char} {ts us : List Token}
    (hxs : a.scan s xs = (t, ts)) (hys : a.scan t ys = (u, us)) :
    a.scan s (xs ++ ys) = (u, ts ++ us) := by
  induction xs generalizing s ts with
  | nil =>
    cases hxs
    exact hys
  | cons c xs ih =>
    rw [Alphabet.scan, Prod.mk.injEq] at hxs
    have hrest := ih (Prod.ext hxs.1 rfl)
    rw [List.cons_append, Alphabet.scan, hrest, ← hxs.2, List.append_assoc]

theorem tokens_of_scan {s : State} {cs : List Char} {ts us : List Token}
    (h : a.scan .between cs = (s, ts)) (hs : s.finish = some us) :
    a.tokens cs = some (ts ++ us) := by
  rw [Alphabet.tokens, h, hs, Option.map_some]

/-- A check of a text for what all alphabets have in common. -/
def isAscii (cs : List Char) : Bool := cs.all fun c => decide (c.toNat < 128)

theorem isAscii_cons {c : Char} {cs : List Char} :
    isAscii (c :: cs) = true ↔ c.toNat < 128 ∧ isAscii cs = true := by
  rw [isAscii, List.all_cons, Bool.and_eq_true, decide_eq_true_eq, isAscii]

theorem isWord_of_ascii {c : Char} (h : c.toNat < 128) :
    a.isWord c = Alphabet.basic.isWord c := by
  rw [Alphabet.isWord, Alphabet.isWord, a.ascii c h, Alphabet.basic.ascii c h]

theorem next_of_ascii {s : State} {c : Char} (h : c.toNat < 128) :
    a.next s c = Alphabet.basic.next s c := by
  have hstart : a.start c = Alphabet.basic.start c := by
    rw [Alphabet.start, Alphabet.start, isWord_of_ascii h]
  cases s <;> simp only [Alphabet.next, Alphabet.startAfter, isWord_of_ascii h, hstart]

/-- Letters of other scripts do not matter to a text that has none. -/
theorem scan_of_ascii {s : State} {cs : List Char} (h : isAscii cs = true) :
    a.scan s cs = Alphabet.basic.scan s cs := by
  induction cs generalizing s with
  | nil => rfl
  | cons c cs ih =>
    rw [isAscii_cons] at h
    rw [Alphabet.scan, Alphabet.scan, next_of_ascii h.1, ih h.2]

theorem tokens_of_ascii {cs : List Char} (h : isAscii cs = true) :
    a.tokens cs = Alphabet.basic.tokens cs := by
  rw [Alphabet.tokens, Alphabet.tokens, scan_of_ascii h]

theorem scan_word {ws cs : List Char} (h : ∀ c ∈ cs, a.isWord c = true) :
    a.scan (.word ws) cs = (.word (ws ++ cs), []) := by
  induction cs generalizing ws with
  | nil => rw [List.append_nil]; rfl
  | cons c cs ih =>
    rw [List.forall_mem_cons] at h
    rw [Alphabet.scan, Alphabet.next, if_pos h.1, ih h.2, List.append_assoc]
    rfl

theorem scan_quoted {ws cs : List Char} (h : '"' ∉ cs) :
    a.scan (.quoted ws) (cs ++ ['"']) = (.between, [.quoted (ws ++ cs)]) := by
  induction cs generalizing ws with
  | nil => rw [List.append_nil]; rfl
  | cons c cs ih =>
    rw [List.mem_cons, not_or] at h
    rw [List.cons_append, Alphabet.scan, Alphabet.next, if_neg (Ne.symm h.1), ih h.2,
      List.append_assoc]
    rfl

/-- An escaped text can be anything: no part of it ends the literal. -/
theorem scan_escape {ws cs : List Char} :
    a.scan (.literal ws) (escape cs) = (.literal (ws ++ cs), []) := by
  induction cs generalizing ws with
  | nil => rw [List.append_nil]; rfl
  | cons c cs ih =>
    have hcons : escape (c :: cs) = (if c = '\'' then ['\'', '\''] else [c]) ++ escape cs := rfl
    rw [hcons]
    by_cases hc : c = '\''
    · subst hc
      have hpair : a.scan (.literal ws) ['\'', '\''] = (.literal (ws ++ ['\'']), []) := rfl
      rw [if_pos rfl, scan_append hpair ih, List.append_assoc]
      rfl
    · have hone : a.scan (.literal ws) [c] = (.literal (ws ++ [c]), []) := by
        rw [Alphabet.scan, Alphabet.next, if_neg hc]
        rfl
      rw [if_neg hc, scan_append hone ih, List.append_assoc]
      rfl

end Scanning

section Tokens

variable {a : Alphabet}

/-- What follows ends the token that a state holds. -/
structure Ends (a : Alphabet) (s : State) (us : List Token) (ys : List Char) : Prop where
  finish : s.finish = some us
  next : ∀ c ∈ ys.head?, a.next s c = ((a.start c).1, us ++ (a.start c).2)

theorem scan_of_ends {s : State} {us : List Token} {ys : List Char} (hne : ys ≠ [])
    (hends : Ends a s us ys) :
    a.scan s ys = ((a.scan .between ys).1, us ++ (a.scan .between ys).2) := by
  obtain ⟨c, ys, rfl⟩ := List.exists_cons_of_ne_nil hne
  have hstart : a.next .between c = a.start c := rfl
  simp only [Alphabet.scan, hends.next c rfl, hstart, List.append_assoc]

/-- Texts are read one after the other when no token goes on in the second one. -/
theorem tokens_append {s : State} {xs ys : List Char} {ts us : List Token}
    (h : a.scan .between xs = (s, ts)) (hends : Ends a s us ys) :
    a.tokens (xs ++ ys) = (a.tokens ys).map (ts ++ us ++ ·) := by
  cases ys with
  | nil =>
    rw [List.append_nil, tokens_of_scan h hends.finish]
    simp [Alphabet.tokens, Alphabet.scan, State.finish]
  | cons c ys =>
    have hrest := scan_of_ends (List.cons_ne_nil c ys) hends
    rw [Alphabet.tokens, scan_append h hrest, Alphabet.tokens, Option.map_map]
    congr 1
    funext vs
    simp only [Function.comp_apply, List.append_assoc]

theorem Ends.between {ys : List Char} : Ends a .between [] ys := ⟨rfl, fun _ _ => rfl⟩

theorem Ends.word {cs ys : List Char} (h : ∀ c ∈ ys.head?, a.isWord c = false) :
    Ends a (.word cs) [.word cs] ys where
  finish := rfl
  next c hc := by
    rw [Alphabet.next, h c hc]
    rfl

theorem Ends.closing {cs ys : List Char} (h : ys.head? ≠ some '\'') :
    Ends a (.closing cs) [.literal cs] ys where
  finish := rfl
  next c hc := by
    have hne : c ≠ '\'' := by
      rintro rfl
      exact h hc
    rw [Alphabet.next, if_neg hne]
    rfl

theorem Ends.dash {ys : List Char} (h : ys.head? ≠ some '-') : Ends a .dash [.symbol '-'] ys where
  finish := rfl
  next c hc := by
    have hne : c ≠ '-' := by
      rintro rfl
      exact h hc
    rw [Alphabet.next, if_neg hne]
    rfl

theorem not_isWord_of_mem {c : Char} (h : c ∈ [' ', '\t', '\r', '\n', '"', '\'', '-', '/', '=']) :
    a.isWord c = false := by
  have hsigns : [' ', '\t', '\r', '\n', '"', '\'', '-', '/', '='].all
      (fun d => decide (d.toNat < 128) && !Alphabet.basic.isWord d) = true := by decide
  have hc := List.all_eq_true.mp hsigns c h
  rw [Bool.and_eq_true, decide_eq_true_eq, Bool.not_eq_true'] at hc
  exact (isWord_of_ascii hc.1).trans hc.2

theorem start_of_isWord {c : Char} (h : a.isWord c = true) : a.start c = (.word [c], []) := by
  have hblank : c.isWhitespace = false := by
    rw [Bool.eq_false_iff]
    intro hc
    have hmem : c ∈ [' ', '\t', '\r', '\n', '"', '\'', '-', '/', '='] := by
      simp only [Char.isWhitespace, Bool.or_eq_true, decide_eq_true_eq] at hc
      rcases hc with ((rfl | rfl) | rfl) | rfl <;> decide
    rw [not_isWord_of_mem hmem] at h
    cases h
  rw [Alphabet.start, hblank, if_neg Bool.false_ne_true, if_pos h]

theorem scan_isWord {cs : List Char} (hne : cs ≠ []) (h : ∀ c ∈ cs, a.isWord c = true) :
    a.scan .between cs = (.word cs, []) := by
  obtain ⟨c, cs, rfl⟩ := List.exists_cons_of_ne_nil hne
  rw [List.forall_mem_cons] at h
  rw [Alphabet.scan, Alphabet.next, start_of_isWord h.1, scan_word h.2]
  rfl

theorem tokens_word {cs ys : List Char} (hne : cs ≠ []) (hcs : ∀ c ∈ cs, a.isWord c = true)
    (hys : ∀ c ∈ ys.head?, a.isWord c = false) :
    a.tokens (cs ++ ys) = (a.tokens ys).map (.word cs :: ·) :=
  tokens_append (scan_isWord hne hcs) (.word hys)

theorem tokens_quoted {cs ys : List Char} (h : '"' ∉ cs) :
    a.tokens ('"' :: (cs ++ '"' :: ys)) = (a.tokens ys).map (.quoted cs :: ·) := by
  have hopen : a.scan .between ['"'] = (.quoted [], []) := scan_of_ascii (by decide)
  have hread : a.tokens (['"'] ++ (cs ++ ['"']) ++ ys) = (a.tokens ys).map (.quoted cs :: ·) :=
    tokens_append (scan_append hopen (scan_quoted h)) .between
  simpa only [List.append_assoc, List.cons_append, List.nil_append] using hread

theorem tokens_literal {cs ys : List Char} (h : ys.head? ≠ some '\'') :
    a.tokens ('\'' :: (escape cs ++ '\'' :: ys)) = (a.tokens ys).map (.literal cs :: ·) := by
  have hopen : a.scan .between ['\''] = (.literal [], []) := scan_of_ascii (by decide)
  have hclose : a.scan (.literal cs) ['\''] = (.closing cs, []) := rfl
  have hread : a.tokens (['\''] ++ (escape cs ++ ['\'']) ++ ys) =
      (a.tokens ys).map (.literal cs :: ·) :=
    tokens_append (scan_append hopen (scan_append scan_escape hclose)) (.closing h)
  simpa only [List.append_assoc, List.cons_append, List.nil_append] using hread

/-- A fixed text that ends with a blank or a sign. -/
theorem tokens_text {xs ys : List Char} {ts : List Token} (hxs : isAscii xs = true)
    (h : Alphabet.basic.scan .between xs = (.between, ts)) :
    a.tokens (xs ++ ys) = (a.tokens ys).map (ts ++ ·) := by
  have hread : a.tokens (xs ++ ys) = (a.tokens ys).map (ts ++ [] ++ ·) :=
    tokens_append ((scan_of_ascii hxs).trans h) .between
  rwa [List.append_nil] at hread

end Tokens

section Kinds

variable {a : Alphabet}

/-- What holds of every token, as a step of the reading keeps it. -/
theorem tokens_forall {P : State → Prop} {Q : Token → Prop} {cs : List Char} {ts : List Token}
    (hstart : P .between)
    (hnext : ∀ s, ∀ c ∈ cs, P s → P (a.next s c).1 ∧ ∀ t ∈ (a.next s c).2, Q t)
    (hfinish : ∀ s us, P s → s.finish = some us → ∀ t ∈ us, Q t)
    (h : a.tokens cs = some ts) : ∀ t ∈ ts, Q t := by
  have hscan : ∀ (xs : List Char) (s : State), (∀ c ∈ xs, c ∈ cs) → P s →
      P (a.scan s xs).1 ∧ ∀ t ∈ (a.scan s xs).2, Q t := by
    intro xs
    induction xs with
    | nil => exact fun s _ hs => ⟨hs, by simp [Alphabet.scan]⟩
    | cons c xs ih =>
      intro s hxs hs
      rw [List.forall_mem_cons] at hxs
      obtain ⟨hs', hts⟩ := hnext s c hxs.1 hs
      obtain ⟨hs'', hts'⟩ := ih (a.next s c).1 hxs.2 hs'
      exact ⟨hs'', fun t ht => (List.mem_append.mp ht).elim (hts t) (hts' t)⟩
  obtain ⟨hs, hts⟩ := hscan cs .between (fun _ hc => hc) hstart
  obtain ⟨us, hus, rfl⟩ := Option.map_eq_some_iff.mp h
  exact fun t ht => (List.mem_append.mp ht).elim (hts t) (hfinish _ us hs hus t)

/-- An identifier has no double quote, but the text that it comes from has. -/
def Token.Sound (text : List Char) : Token → Prop
  | .quoted cs => '"' ∉ cs ∧ '"' ∈ text
  | _ => True

/-- The identifier that has been read in part. -/
def State.held : State → List Token
  | .quoted cs => [.quoted cs]
  | _ => []

def Sound (text : List Char) (r : State × List Token) : Prop :=
  (∀ t ∈ r.1.held, t.Sound text) ∧ ∀ t ∈ r.2, t.Sound text

theorem sound_start {text : List Char} {c : Char} (hc : c ∈ text) : Sound text (a.start c) := by
  unfold Alphabet.start
  split_ifs with _ _ hquote
  · simp [Sound, State.held]
  · simp [Sound, State.held]
  · rw [hquote] at hc
    simp [Sound, State.held, Token.Sound, hc]
  all_goals simp [Sound, State.held, Token.Sound]

theorem sound_startAfter {text : List Char} {t : Token} {c : Char} (hc : c ∈ text)
    (ht : t.Sound text) : Sound text (a.startAfter t c) :=
  ⟨(sound_start hc).1, List.forall_mem_cons.mpr ⟨ht, (sound_start hc).2⟩⟩

theorem sound_next {text : List Char} {s : State} {c : Char} (hc : c ∈ text)
    (hs : ∀ t ∈ s.held, t.Sound text) : Sound text (a.next s c) := by
  cases s
  case between => exact sound_start hc
  case quoted cs =>
    have hquoted : Token.Sound text (.quoted cs) := hs _ (List.mem_singleton_self _)
    rw [Alphabet.next]
    split
    next => exact ⟨by simp [State.held], by simpa using hquoted⟩
    next hne =>
      refine ⟨?_, by simp⟩
      simp only [State.held, List.mem_singleton, forall_eq, Token.Sound, List.mem_append, not_or]
      exact ⟨⟨hquoted.1, Ne.symm hne⟩, hquoted.2⟩
  all_goals
    -- no identifier has been begun
    rw [Alphabet.next]
    split_ifs
    all_goals first
      | exact sound_startAfter hc trivial
      | exact ⟨by simp [State.held], by simp⟩

theorem tokens_sound {cs : List Char} {ts : List Token} (h : a.tokens cs = some ts) :
    ∀ t ∈ ts, t.Sound cs := by
  refine tokens_forall (P := fun s => ∀ t ∈ s.held, t.Sound cs) (by simp [State.held])
    (fun s c hc hs => sound_next hc hs) ?_ h
  intro s us _ hus
  cases s <;> cases hus
  all_goals simp [Token.Sound]

end Kinds

section Spelling

variable {a : Alphabet}

/-- A token as it is written. -/
def Token.spelling : Token → List Char
  | .word cs => cs
  | .quoted cs => '"' :: (cs ++ ['"'])
  | .literal cs => '\'' :: (escape cs ++ ['\''])
  | .symbol c => [c]

def spelling (ts : List Token) : List Char := ts.flatMap Token.spelling

theorem spelling_append (ts us : List Token) : spelling (ts ++ us) = spelling ts ++ spelling us :=
  List.flatMap_append

/-- A word or a dash that can go on, or neither. -/
inductive Dashed (a : Alphabet) : State → List Token → Prop where
  | between : Dashed a .between []
  | word {cs : List Char} : (∀ c ∈ cs, a.isWord c = true) → Dashed a (.word cs) [.word cs]
  | dash : Dashed a .dash [.symbol '-']

theorem Dashed.ends {s : State} {us : List Token} {ys : List Char} (h : Dashed a s us)
    (hys : ∀ c ∈ ys.head?, c = ' ') : Ends a s us ys := by
  cases h with
  | between => exact .between
  | word hcs =>
    refine .word fun c hc => ?_
    rw [hys c hc]
    exact isWord_of_ascii (by decide)
  | dash =>
    refine .dash fun hdash => ?_
    have hblank := hys '-' hdash
    revert hblank
    decide

theorem infix_dashes_append {ws cs : List Char} (h : '-' ∉ ws) :
    ['-', '-'] <:+: ws ++ cs ↔ ['-', '-'] <:+: cs := by
  induction ws with
  | nil => rfl
  | cons w ws ih =>
    rw [List.mem_cons, not_or] at h
    rw [List.cons_append, List.infix_cons_iff, ih h.2, List.cons_prefix_cons]
    constructor
    · rintro (⟨hw, -⟩ | hrest)
      · exact absurd hw h.1
      · exact hrest
    · exact .inr

theorem ne_dash_of_isWord {c : Char} (h : a.isWord c = true) : '-' ≠ c := by
  rintro rfl
  rw [not_isWord_of_mem (by decide)] at h
  cases h

/-- One more character of a word, or a dash, that does not open a comment. -/
theorem next_dashed {s : State} {us : List Token} {c : Char} (hs : Dashed a s us)
    (hc : a.isWord c = true ∨ c = '-') (hopen : ¬ (s = .dash ∧ c = '-')) :
    ∃ vs, Dashed a (a.next s c).1 vs ∧
      spelling ((a.next s c).2 ++ vs) = spelling us ++ [c] ∧
      ∀ cs, ['-', '-'] <:+: spelling us ++ c :: cs ↔ ['-', '-'] <:+: spelling vs ++ cs := by
  have hdash : a.start '-' = (.dash, []) := by
    rw [Alphabet.start, @not_isWord_of_mem a '-' (by decide)]
    rfl
  cases hs with
  | between =>
    rw [Alphabet.next]
    rcases hc with hc | rfl
    · rw [start_of_isWord hc]
      exact ⟨_, .word (by simpa using hc), rfl, fun cs => Iff.rfl⟩
    · rw [hdash]
      exact ⟨_, .dash, rfl, fun cs => Iff.rfl⟩
  | @word ws hws =>
    rw [Alphabet.next]
    rcases hc with hc | rfl
    · rw [if_pos hc]
      refine ⟨_, .word (List.forall_mem_append.mpr ⟨hws, by simpa using hc⟩), ?_, ?_⟩
      · simp [spelling, Token.spelling]
      · intro cs
        simp [spelling, Token.spelling]
    · rw [not_isWord_of_mem (by decide), if_neg Bool.false_ne_true, Alphabet.startAfter, hdash]
      refine ⟨_, .dash, ?_, ?_⟩
      · simp [spelling, Token.spelling]
      · intro cs
        have hnot : '-' ∉ ws := fun hmem => ne_dash_of_isWord (hws _ hmem) rfl
        have hspell : spelling [.word ws] = ws := by simp [spelling, Token.spelling]
        rw [hspell, infix_dashes_append hnot]
        rfl
  | dash =>
    rcases hc with hc | rfl
    · have hne := ne_dash_of_isWord hc
      rw [Alphabet.next, if_neg (Ne.symm hne), Alphabet.startAfter, start_of_isWord hc]
      refine ⟨_, .word (by simpa using hc), rfl, ?_⟩
      intro cs
      change ['-', '-'] <:+: '-' :: c :: cs ↔ ['-', '-'] <:+: c :: cs
      rw [List.infix_cons_iff]
      constructor
      · rintro (hfirst | hrest)
        · rw [List.cons_prefix_cons, List.cons_prefix_cons] at hfirst
          exact absurd hfirst.2.1 hne
        · exact hrest
      · exact .inr
    · exact absurd ⟨rfl, rfl⟩ hopen

theorem scan_lineComment {cs : List Char} (h : '\n' ∉ cs) :
    a.scan .lineComment cs = (.lineComment, []) := by
  induction cs with
  | nil => rfl
  | cons c cs ih =>
    rw [List.mem_cons, not_or] at h
    rw [Alphabet.scan, Alphabet.next, if_neg (Ne.symm h.1), ih h.2]
    rfl

/-- Words and dashes are read as they are spelled when there is no comment among them. -/
theorem scan_dashed {s : State} {us : List Token} {cs : List Char} (hs : Dashed a s us)
    (hcs : ∀ c ∈ cs, a.isWord c = true ∨ c = '-') (hno : ¬ ['-', '-'] <:+: spelling us ++ cs) :
    ∃ vs, Dashed a (a.scan s cs).1 vs ∧ spelling ((a.scan s cs).2 ++ vs) = spelling us ++ cs := by
  induction cs generalizing s us with
  | nil =>
    rw [List.append_nil]
    exact ⟨us, hs, rfl⟩
  | cons c cs ih =>
    rw [List.forall_mem_cons] at hcs
    have hopen : ¬ (s = .dash ∧ c = '-') := by
      rintro ⟨rfl, rfl⟩
      cases hs
      exact hno ⟨[], cs, rfl⟩
    obtain ⟨vs, hvs, hspell, hdashes⟩ := next_dashed hs hcs.1 hopen
    rw [hdashes cs] at hno
    obtain ⟨ws, hws, hrest⟩ := ih hvs hcs.2 hno
    refine ⟨ws, hws, ?_⟩
    rw [spelling_append] at hspell
    rw [Alphabet.scan, List.append_assoc, spelling_append, hrest, ← List.append_assoc, hspell,
      List.append_assoc, List.singleton_append]

theorem Dashed.not_infix {s : State} {us : List Token} (h : Dashed a s us) :
    ¬ ['-', '-'] <:+: spelling us := by
  cases h with
  | between => decide
  | @word ws hws =>
    have hnot : '-' ∉ ws := fun hmem => ne_dash_of_isWord (hws _ hmem) rfl
    have hspell : spelling [.word ws] = ws ++ [] := by simp [spelling, Token.spelling]
    rw [hspell, infix_dashes_append hnot]
    decide
  | dash => decide

/-- Otherwise the comment hides some of what was to be spelled. -/
theorem scan_dashed_comment {s : State} {us : List Token} {cs : List Char} (hs : Dashed a s us)
    (hcs : ∀ c ∈ cs, a.isWord c = true ∨ c = '-') (hin : ['-', '-'] <:+: spelling us ++ cs) :
    (a.scan s cs).1 = .lineComment ∧
      (spelling (a.scan s cs).2).length < (spelling us ++ cs).length := by
  induction cs generalizing s us with
  | nil =>
    rw [List.append_nil] at hin
    exact absurd hin hs.not_infix
  | cons c cs ih =>
    rw [List.forall_mem_cons] at hcs
    by_cases hopen : s = .dash ∧ c = '-'
    · obtain ⟨rfl, rfl⟩ := hopen
      have hline : '\n' ∉ cs := by
        intro hmem
        rcases hcs.2 _ hmem with hword | hdash
        · rw [not_isWord_of_mem (by decide)] at hword
          cases hword
        · revert hdash
          decide
      rw [Alphabet.scan, Alphabet.next, if_pos rfl, scan_lineComment hline]
      exact ⟨rfl, by simp [spelling]⟩
    · obtain ⟨vs, hvs, hspell, hdashes⟩ := next_dashed hs hcs.1 hopen
      obtain ⟨hline, hlength⟩ := ih hvs hcs.2 ((hdashes cs).mp hin)
      refine ⟨hline, ?_⟩
      rw [spelling_append] at hspell
      have hlengths := congrArg List.length hspell
      rw [Alphabet.scan, spelling_append]
      simp only [List.length_append, List.length_cons, List.length_nil] at hlength hlengths ⊢
      omega

end Spelling

end SqlLexer
