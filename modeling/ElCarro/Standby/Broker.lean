import ElCarro.Lib.Regexp
import ElCarro.Standby.Verify

/-! # Configurations of the broker

The broker prints a configuration as text, and the tasks find the names in it with regular
expressions. From a text that is laid out as the broker lays it out they get the name of the
configuration, its primary and its standbys.
-/

namespace ElCarro.StandbyDR.Broker

open Regexp

section Patterns

def space (c : Char) : Bool := c == ' ' || c == '\t' || c == '\n' || c == '\r' || c == '\x0c'

def nonSpace (c : Char) : Bool := !space c

def spaces : List Piece := [.star space]

def configurationNameRe : Pattern where
  before := literal "Configuration".toList ++ (spaces ++ (literal ['-'] ++ spaces))
  group := plus nonSpace
  after := []

def uniqueNameRe (phrase : String) : Pattern where
  before := []
  group := plus nonSpace
  after := spaces ++ (literal ['-'] ++ (spaces ++ literal phrase.toList))

def primaryUniqueNameRe : Pattern := uniqueNameRe "Primary database"

def physicalStandbyUniqueNameRe : Pattern := uniqueNameRe "Physical standby database"

def logicalStandbyUniqueNameRe : Pattern := uniqueNameRe "Logical standby database"

def quote : Char := '\x27'

def connRe : Pattern where
  before := literal "DGConnectIdentifier".toList ++
    (spaces ++ (literal ['='] ++ (spaces ++ literal [quote])))
  group := plus nonSpace
  after := literal [quote]

def findStringSubmatch (r : Pattern) (text : String) : Option String :=
  (r.find text.toList).map String.ofList

def findAllStringSubmatch (r : Pattern) (text : String) : List String :=
  (r.findAll 0 text.toList).map String.ofList

end Patterns

section Members

structure DgMembers where
  configuration : String
  primary : String
  physicalStandbys : List String
  logicalStandbys : List String
  deriving DecidableEq, Repr

def DgMembers.size (m : DgMembers) : ℕ := m.physicalStandbys.length + m.logicalStandbys.length

def DgMembers.standbyContains (casing : Databases.Users.Casing) (m : DgMembers)
    (dbUniqueName : String) : Bool :=
  m.physicalStandbys.any (casing.equalFold · dbUniqueName) ||
    m.logicalStandbys.any (casing.equalFold · dbUniqueName)

/-- `members`, from the output of `show configuration`. -/
def members : List String → Except String DgMembers
  | [text] =>
    match findStringSubmatch configurationNameRe text with
    | none => .error ("failed to find configuration name from " ++ text)
    | some configuration =>
      match findStringSubmatch primaryUniqueNameRe text with
      | none => .error ("failed to find primary unique name from " ++ text)
      | some primary =>
        .ok { configuration, primary,
              physicalStandbys := findAllStringSubmatch physicalStandbyUniqueNameRe text
              logicalStandbys := findAllStringSubmatch logicalStandbyUniqueNameRe text }
  | output => .error ("got unexpected resp: " ++ formatRows output ++
      ", want len(resp.GetOuput()) = 1")

/-- `connectIdentifier`, from the output of `show database`. -/
def connectIdentifier : List String → Except String String
  | [text] =>
    match findStringSubmatch connRe text with
    | none => .error ("failed to find connect identifier from " ++ text)
    | some matched => .ok matched
  | output => .error ("got unexpected resp: " ++ formatRows output ++
      ", want len(resp.GetOuput()) = 1")

end Members

section Layout

inductive Role where
  | primary | physicalStandby | logicalStandby
  deriving DecidableEq, Repr

def Role.phrase : Role → String
  | .primary => "Primary database"
  | .physicalStandby => "Physical standby database"
  | .logicalStandby => "Logical standby database"

structure Member where
  name : String
  role : Role
  deriving DecidableEq, Repr

/-- A line of a printed configuration. The members of other kinds have lines of text. -/
inductive Line where
  | member (indent pad trailing : ℕ) (m : Member)
  | other (text : String)

def Line.text : Line → List Char
  | .member indent pad trailing m =>
    List.replicate indent ' ' ++ m.name.toList ++ List.replicate (pad + 1) ' ' ++
      '-' :: (' ' :: m.role.phrase.toList ++ List.replicate trailing ' ')
  | .other text => text.toList

def Line.member? : Line → Option Member
  | .member _ _ _ m => some m
  | .other _ => none

def unlines (lines : List (List Char)) : List Char := lines.flatMap (· ++ ['\n'])

/-- A configuration as the broker prints it. -/
structure Shown where
  header : List String
  configuration : String
  lines : List Line

def Shown.configurationLine (s : Shown) : List Char :=
  "Configuration ".toList ++ '-' :: ' ' :: s.configuration.toList

def Shown.text (s : Shown) : String :=
  String.ofList (unlines (s.header.map String.toList ++
    s.configurationLine :: s.lines.map Line.text))

def Shown.members (s : Shown) : List Member := s.lines.filterMap Line.member?

/-- The names of the members with a role. -/
def Shown.named (s : Shown) (role : Role) : List String :=
  (s.members.filter (·.role = role)).map Member.name

/-- A text in one line that says nothing about a member. -/
structure Plain (line : List Char) : Prop where
  oneLine : '\n' ∉ line
  silent : ∀ role : Role, ¬ role.phrase.toList <:+: line
  opening : (line.dropWhile space).head? ≠ some '-'

structure IsWord (name : List Char) : Prop where
  nonempty : name ≠ []
  spaceless : ∀ c ∈ name, nonSpace c = true

structure IsUniqueName (name : List Char) : Prop extends IsWord name where
  noDash : '-' ∉ name

def Line.Proper : Line → Prop
  | .member _ _ _ m => IsUniqueName m.name.toList
  | .other text => Plain text.toList

/-- The names are words, and no other line looks like the one of the configuration or of a
member. -/
structure Shown.Proper (s : Shown) : Prop where
  header : ∀ line ∈ s.header,
    Plain line.toList ∧ ¬ "Configuration".toList <:+: line.toList
  configuration : IsWord s.configuration.toList
  lines : ∀ line ∈ s.lines, line.Proper

/-- The property of a database as the broker prints it. -/
structure ShownIdentifier where
  header : List String
  indent : ℕ
  identifier : String

def ShownIdentifier.text (s : ShownIdentifier) : String :=
  String.ofList (unlines (s.header.map String.toList) ++ (List.replicate s.indent ' ' ++
    ("DGConnectIdentifier".toList ++ (' ' :: '=' :: ' ' :: quote ::
      (s.identifier.toList ++ [quote, '\n'])))))

structure ShownIdentifier.Proper (s : ShownIdentifier) : Prop where
  header : ∀ line ∈ s.header, ¬ "DGConnectIdentifier".toList <:+: line.toList
  word : IsWord s.identifier.toList
  noQuote : quote ∉ s.identifier.toList

theorem isWord_iff {name : List Char} : IsWord name ↔ name ≠ [] ∧ name.all nonSpace = true :=
  ⟨fun h => ⟨h.nonempty, List.all_eq_true.mpr h.spaceless⟩,
    fun h => ⟨h.1, List.all_eq_true.mp h.2⟩⟩

instance (name : List Char) : Decidable (IsWord name) := decidable_of_iff _ isWord_iff.symm

instance (name : List Char) : Decidable (IsUniqueName name) :=
  decidable_of_iff (IsWord name ∧ name.contains '-' = false)
    ⟨fun h => ⟨h.1, by simpa using h.2⟩, fun h => ⟨h.toIsWord, by simpa using h.noDash⟩⟩

theorem plain_iff {line : List Char} :
    Plain line ↔ line.contains '\n' = false ∧
      [Role.primary, .physicalStandby, .logicalStandby].all
        (fun role => !decide (role.phrase.toList <:+: line)) = true ∧
      (line.dropWhile space).head? ≠ some '-' := by
  constructor
  · intro h
    refine ⟨by simpa using h.oneLine, ?_, h.opening⟩
    refine List.all_eq_true.mpr fun role _ => ?_
    simpa using h.silent role
  · rintro ⟨hline, hsilent, hopening⟩
    refine ⟨by simpa using hline, ?_, hopening⟩
    intro role
    have hrole := List.all_eq_true.mp hsilent role (by cases role <;> simp)
    simpa using hrole

instance (line : List Char) : Decidable (Plain line) := decidable_of_iff _ plain_iff.symm

instance (line : Line) : Decidable line.Proper :=
  match line with
  | .member _ _ _ m => inferInstanceAs (Decidable (IsUniqueName m.name.toList))
  | .other text => inferInstanceAs (Decidable (Plain text.toList))

instance (s : Shown) : Decidable s.Proper :=
  decidable_of_iff ((∀ line ∈ s.header,
      Plain line.toList ∧ ¬ "Configuration".toList <:+: line.toList) ∧
    IsWord s.configuration.toList ∧ ∀ line ∈ s.lines, line.Proper)
    ⟨fun h => ⟨h.1, h.2.1, h.2.2⟩, fun h => ⟨h.header, h.configuration, h.lines⟩⟩

end Layout

section Words

theorem spaces_blank : ∀ c ∈ [' '], space c = true := by
  intro c hc
  rw [List.mem_singleton.mp hc]
  rfl

theorem nonSpace_eq_false {c : Char} : nonSpace c = false ↔ space c = true := by
  simp [nonSpace]

variable {name word gap gap' phrase : List Char}

theorem head?_of_spaces (hgap : ∀ c ∈ gap, space c = true) :
    ∀ c ∈ gap.head?, nonSpace c = false :=
  fun c hc => nonSpace_eq_false.mpr (hgap c (List.mem_of_mem_head? hc))

/-- Two words are not in one word with gaps around it. -/
theorem not_infix_of_words {a b : Char} (hsub : List.Sublist [a, ' ', b] phrase)
    (ha : nonSpace a = true) (hb : nonSpace b = true) (hgap : ∀ c ∈ gap, space c = true)
    (hname : ∀ c ∈ name, nonSpace c = true) (hgap' : ∀ c ∈ gap', space c = true) :
    ¬ phrase <:+: gap ++ name ++ gap' := by
  have hspace : ∀ c, nonSpace c = true → space c ≠ true := by simp [nonSpace]
  intro hin
  have h := hsub.trans hin.sublist
  obtain ⟨u, v, huv, hu, hv⟩ := List.sublist_append_iff.mp h
  obtain ⟨u₁, u₂, rfl, hu₁, hu₂⟩ := List.sublist_append_iff.mp hu
  -- What is before the last word cannot be in the gap behind the name, nor behind the name.
  have hgap₁ : ∀ c ∈ u₁, space c = true := fun c hc => hgap c (hu₁.subset hc)
  have hname₂ : ∀ c ∈ u₂, nonSpace c = true := fun c hc => hname c (hu₂.subset hc)
  have hgapv : ∀ c ∈ v, space c = true := fun c hc => hgap' c (hv.subset hc)
  cases u₁ with
  | cons c u₁ =>
    obtain rfl : a = c := by simp at huv; exact huv.1
    exact hspace a ha (hgap₁ a List.mem_cons_self)
  | nil =>
    rw [List.nil_append] at huv
    have hlast : b ∈ u₂ := by
      have hmem : b ∈ u₂ ++ v := by rw [← huv]; simp
      rcases List.mem_append.mp hmem with hmem | hmem
      · exact hmem
      · exact absurd (hgapv b hmem) (hspace b hb)
    have hmid : ' ' ∈ u₂ := by
      cases u₂ with
      | nil => cases hlast
      | cons c u₂ =>
        cases u₂ with
        | nil =>
          simp only [List.cons_append, List.nil_append, List.cons.injEq] at huv
          obtain rfl : b = c := List.mem_singleton.mp hlast
          exact absurd (hgapv b (by rw [← huv.2]; simp)) (hspace b hb)
        | cons d u₂ =>
          simp only [List.cons_append, List.cons.injEq] at huv
          rw [huv.2.1]
          simp
    exact absurd (hname₂ ' ' hmid) (by decide)

/-- A phrase without some character is on one side of it. -/
theorem infix_append_cons {c : Char} {u v : List Char} (hc : c ∉ phrase)
    (h : phrase <:+: u ++ c :: v) : phrase <:+: u ∨ phrase <:+: v := by
  obtain ⟨x, y, h⟩ := h
  rcases List.append_eq_append_iff.mp h with ⟨w, hu, hy⟩ | ⟨w, hx, hv⟩
  · exact .inl ⟨x, w, hu.symm⟩
  · cases w with
    | nil => exact .inl ⟨x, [], by simpa using hx⟩
    | cons d w =>
      obtain ⟨rfl, rfl⟩ := List.cons.inj hv
      rcases List.append_eq_append_iff.mp hx with ⟨z, hz, hw⟩ | ⟨z, hz, hw⟩
      · exact absurd (by rw [hw]; simp) hc
      · cases z with
        | nil => exact absurd (by rw [List.nil_append] at hw; rw [← hw]; simp) hc
        | cons e z =>
          obtain ⟨rfl, rfl⟩ := List.cons.inj hw
          exact .inr ⟨z, y, rfl⟩

end Words

section Lines

/-- What the proofs need to know about the phrase of a role. -/
structure IsPhrase (phrase : List Char) : Prop where
  head : ∀ c ∈ phrase.head?, nonSpace c = true
  nonempty : phrase ≠ []
  oneLine : '\n' ∉ phrase
  noDash : '-' ∉ phrase
  words : ∃ a b, List.Sublist [a, ' ', b] phrase ∧ nonSpace a = true ∧ nonSpace b = true

theorem isPhrase_phrase (role : Role) : IsPhrase role.phrase.toList := by
  cases role
  · exact ⟨by rintro c ⟨⟩; rfl, by decide, by decide, by decide, 'y', 'd', by decide, rfl, rfl⟩
  · exact ⟨by rintro c ⟨⟩; rfl, by decide, by decide, by decide, 'l', 's', by decide, rfl, rfl⟩
  · exact ⟨by rintro c ⟨⟩; rfl, by decide, by decide, by decide, 'l', 's', by decide, rfl, rfl⟩

/-- The first word of a text neither begins with a dash nor is it the phrase. -/
structure Quiet (phrase text : List Char) : Prop where
  opening : (text.dropWhile space).head? ≠ some '-'
  silent : ¬ phrase <+: text.dropWhile space

theorem IsPhrase.head?_append {phrase : List Char} (h : IsPhrase phrase) (text : List Char) :
    ∀ c ∈ (phrase ++ text).head?, space c = false := by
  obtain ⟨c, cs, rfl⟩ := List.exists_cons_of_ne_nil h.nonempty
  simpa [nonSpace] using h.head c rfl

variable {phrase : String} {line text : List Char}

theorem splits_uniqueNameRe {before group after tail : List Char}
    (h : (uniqueNameRe phrase).Splits text before group after tail) :
    ∃ gap gap', IsWord group ∧ (∀ c ∈ gap, space c = true) ∧ (∀ c ∈ gap', space c = true) ∧
      before = [] ∧ after = gap ++ '-' :: (gap' ++ phrase.toList) ∧
      text = group ++ (gap ++ '-' :: (gap' ++ (phrase.toList ++ tail))) := by
  obtain ⟨hbefore, hgroup, hafter, rfl⟩ := h
  obtain rfl := taken_nil.mp hbefore
  obtain ⟨hne, hword⟩ := taken_plus.mp hgroup
  obtain ⟨gap, rest, hgap, hrest, rfl⟩ := taken_append.mp hafter
  obtain ⟨dash, rest', hdash, hrest', rfl⟩ := taken_append.mp hrest
  obtain ⟨gap', lit, hgap', hlit, rfl⟩ := taken_append.mp hrest'
  obtain rfl := taken_literal.mp hdash
  obtain rfl := taken_literal.mp hlit
  exact ⟨gap, gap', ⟨hne, hword⟩, taken_star.mp hgap, taken_star.mp hgap', rfl, by simp, by simp⟩

theorem dropWhile_spaces_append {gap : List Char} (hgap : ∀ c ∈ gap, space c = true) :
    (gap ++ text).dropWhile space = text.dropWhile space :=
  List.dropWhile_append_of_pos hgap

/-- No match begins in a line that is silent, unless the text behind it goes on with one. -/
theorem barren_line (hphrase : IsPhrase phrase.toList) (hline : '\n' ∉ line)
    (hsilent : ¬ phrase.toList <:+: line) (hquiet : Quiet phrase.toList text) :
    (uniqueNameRe phrase).Barren (line ++ ['\n']) text := by
  intro u v hv hne
  obtain ⟨x, rfl⟩ : ∃ x, v = x ++ ['\n'] := by
    rcases List.append_eq_append_iff.mp hv with ⟨w, -, hw⟩ | ⟨w, -, hw⟩
    · rcases List.singleton_eq_append_iff.mp hw with ⟨-, rfl⟩ | ⟨-, rfl⟩
      · exact ⟨[], rfl⟩
      · exact absurd rfl hne
    · exact ⟨w, hw⟩
  have hx : x <:+ line := by
    rw [← List.append_assoc] at hv
    exact ⟨u, (List.append_cancel_right hv).symm⟩
  have hxline : '\n' ∉ x := fun h => hline (hx.subset h)
  have hxsilent : ¬ phrase.toList <:+: x := fun h => hsilent (h.trans hx.isInfix)
  refine Pattern.matchAt_eq_none_iff.mpr ?_
  intro before group after tail hsplits
  obtain ⟨gap, gap', hgroup, hgap, hgap', -, -, heq⟩ := splits_uniqueNameRe hsplits
  have hgroupline : '\n' ∉ group := fun h => absurd (hgroup.spaceless _ h) (by decide)
  rw [List.append_assoc, List.singleton_append, ← List.append_assoc] at heq
  rcases List.append_eq_append_iff.mp heq with ⟨w, hw, hrest⟩ | ⟨w, hw, hrest⟩
  · -- the end of the line is in front of the dash
    cases w with
    | nil => simp at hrest
    | cons c w =>
      rw [List.cons_append] at hrest
      obtain ⟨rfl, rfl⟩ := List.cons.inj hrest
      have hspaces : ∀ c ∈ w, space c = true := by
        rcases List.append_eq_append_iff.mp hw with ⟨z, -, hz⟩ | ⟨z, hz, hz'⟩
        · exact fun c hc => hgap c (by rw [hz]; simp [hc])
        · cases z with
          | nil => exact fun c hc => hgap c (by rw [List.nil_append] at hz'; simp [← hz', hc])
          | cons d z =>
            obtain ⟨rfl, -⟩ := List.cons.inj hz'
            exact absurd (by rw [hz]; simp) hgroupline
      refine hquiet.opening ?_
      rw [dropWhile_spaces_append hspaces]
      rfl
  · -- or behind it
    cases w with
    | nil => simp at hrest
    | cons c w =>
      rw [List.cons_append] at hrest
      obtain ⟨rfl, htail⟩ := List.cons.inj hrest
      rcases List.append_eq_append_iff.mp htail with ⟨z, hz, hz'⟩ | ⟨z, hz, hz'⟩
      · rcases List.append_eq_append_iff.mp hz' with ⟨y, hy, -⟩ | ⟨y, hy, hy'⟩
        · exact hxsilent (by rw [hw, hz, hy]; exact ⟨group ++ gap ++ '-' :: gap', y, by simp⟩)
        · cases y with
          | nil => exact hxsilent (by rw [hw, hz, hy]; exact ⟨group ++ gap ++ '-' :: gap', [], by simp⟩)
          | cons d y =>
            obtain ⟨rfl, -⟩ := List.cons.inj hy'
            exact hphrase.oneLine (by rw [hy]; simp)
      · cases z with
        | nil =>
          obtain ⟨c, cs, hcs⟩ := List.exists_cons_of_ne_nil hphrase.nonempty
          rw [hcs, List.nil_append] at hz'
          obtain ⟨rfl, -⟩ := List.cons.inj hz'
          exact hphrase.oneLine (by rw [hcs]; simp)
        | cons d z =>
          rw [List.cons_append] at hz'
          obtain ⟨rfl, rfl⟩ := List.cons.inj hz'
          refine hquiet.silent ?_
          rw [dropWhile_spaces_append fun c hc => hgap' c (by rw [hz]; simp [hc])]
          obtain ⟨c, cs, hcs⟩ := List.exists_cons_of_ne_nil hphrase.nonempty
          have hc : space c = false := by
            simpa [nonSpace] using hphrase.head c (by rw [hcs]; rfl)
          rw [hcs, List.cons_append, List.dropWhile_cons_of_neg (by simp [hc])]
          exact ⟨tail, rfl⟩

theorem barren_spaces {gap : List Char} (hgap : ∀ c ∈ gap, space c = true) :
    (uniqueNameRe phrase).Barren gap text := by
  intro u v hv hne
  refine Pattern.matchAt_eq_none_iff.mpr ?_
  intro before group after tail hsplits
  obtain ⟨_, _, hgroup, -, -, -, -, heq⟩ := splits_uniqueNameRe hsplits
  obtain ⟨c, cs, rfl⟩ := List.exists_cons_of_ne_nil hne
  obtain ⟨d, ds, hds⟩ := List.exists_cons_of_ne_nil hgroup.nonempty
  rw [hds, List.cons_append, List.cons_append] at heq
  obtain ⟨rfl, -⟩ := List.cons.inj heq
  have hspace : space c = true := hgap c (by rw [hv]; simp)
  have hword : nonSpace c = true := hgroup.spaceless c (by rw [hds]; simp)
  simp [nonSpace, hspace] at hword

variable {name : List Char}

/-- A match that begins with the name has the name as its group. -/
theorem matchAt_name (hphrase : IsPhrase phrase.toList) (hname : IsUniqueName name) (pad : ℕ) :
    (uniqueNameRe phrase).matchAt
        ((name ++ (List.replicate (pad + 1) ' ' ++ '-' :: ' ' :: phrase.toList)) ++ text) =
      some (name, (name ++ (List.replicate (pad + 1) ' ' ++ '-' :: ' ' :: phrase.toList)).length) := by
  have hpad : ∀ c ∈ List.replicate (pad + 1) ' ', space c = true := by
    intro c hc
    rw [List.eq_of_mem_replicate hc]
    rfl
  have hsplits : (uniqueNameRe phrase).Splits
      ((name ++ (List.replicate (pad + 1) ' ' ++ '-' :: ' ' :: phrase.toList)) ++ text) [] name
      (List.replicate (pad + 1) ' ' ++ ('-' :: ' ' :: phrase.toList)) text := by
    refine ⟨taken_nil.mpr rfl, taken_plus.mpr ⟨hname.nonempty, hname.spaceless⟩, ?_, by simp⟩
    refine taken_append.mpr ⟨_, _, taken_star.mpr hpad, ?_, rfl⟩
    refine taken_append.mpr ⟨['-'], ' ' :: phrase.toList, taken_literal.mpr rfl, ?_, rfl⟩
    exact taken_append.mpr ⟨[' '], _, taken_star.mpr spaces_blank, taken_literal.mpr rfl, rfl⟩
  obtain ⟨⟨group, n⟩, hmatch⟩ := Option.isSome_iff_exists.mp hsplits.isSome_matchAt
  obtain ⟨before, after, tail, hsplits', rfl⟩ := Pattern.splits_of_matchAt hmatch
  obtain ⟨gap, gap', hgroup, hgap, hgap', rfl, rfl, heq⟩ := splits_uniqueNameRe hsplits'
  have hnodash : '-' ∉ name ++ List.replicate (pad + 1) ' ' := by
    rw [List.mem_append, List.mem_replicate]
    rintro (h | ⟨-, h⟩)
    · exact hname.noDash h
    · exact absurd h (by decide)
  have hsame : group ++ gap = name ++ List.replicate (pad + 1) ' ' ∧
      ' ' :: (phrase.toList ++ text) = gap' ++ (phrase.toList ++ tail) := by
    have heq' : (name ++ List.replicate (pad + 1) ' ') ++ '-' :: ' ' :: (phrase.toList ++ text) =
        (group ++ gap) ++ '-' :: (gap' ++ (phrase.toList ++ tail)) := by simpa using heq
    rcases List.append_eq_append_iff.mp heq' with ⟨w, hw, hrest⟩ | ⟨w, hw, hrest⟩
    · cases w with
      | nil => exact ⟨by simpa using hw, (List.cons.inj hrest).2⟩
      | cons c w =>
        -- a dash in the word would have the gap before it in the word as well
        rw [List.cons_append] at hrest
        obtain ⟨rfl, -⟩ := List.cons.inj hrest
        rcases List.append_eq_append_iff.mp hw with ⟨z, hz, hz'⟩ | ⟨z, hz, hz'⟩
        · exact absurd (hgap '-' (by rw [hz']; simp)) (by decide)
        · exact absurd (hgroup.spaceless ' ' (by rw [hz]; simp)) (by decide)
    · cases w with
      | nil => exact ⟨by simpa using hw.symm, (List.cons.inj hrest).2.symm⟩
      | cons c w =>
        rw [List.cons_append] at hrest
        obtain ⟨rfl, -⟩ := List.cons.inj hrest
        exact absurd (by rw [hw]; simp) hnodash
  obtain ⟨rfl, rfl⟩ := span_inj hgroup.spaceless (head?_of_spaces hgap) hname.spaceless
    (head?_of_spaces hpad) hsame.1
  obtain ⟨rfl, -⟩ : [' '] = gap' ∧ _ := span_inj spaces_blank (hphrase.head?_append text) hgap'
    (hphrase.head?_append tail) hsame.2
  rw [hmatch]
  simp

/-- The line of a member with the phrase gives its name. -/
theorem findAll_member (hphrase : IsPhrase phrase.toList) (hname : IsUniqueName name)
    (indent pad trailing : ℕ) :
    (uniqueNameRe phrase).findAll 0 (List.replicate indent ' ' ++ name ++
        List.replicate (pad + 1) ' ' ++
        '-' :: (' ' :: phrase.toList ++ List.replicate trailing ' ') ++ ['\n'] ++ text) =
      name :: (uniqueNameRe phrase).findAll 0 text := by
  have hspaces : ∀ n, ∀ c ∈ List.replicate n ' ', space c = true := by
    intro n c hc
    rw [List.eq_of_mem_replicate hc]
    rfl
  have hend : ∀ c ∈ List.replicate trailing ' ' ++ ['\n'], space c = true := by
    intro c hc
    rcases List.mem_append.mp hc with hc | hc
    · exact hspaces trailing c hc
    · rw [List.mem_singleton.mp hc]
      rfl
  have hsplit : List.replicate indent ' ' ++ name ++ List.replicate (pad + 1) ' ' ++
      '-' :: (' ' :: phrase.toList ++ List.replicate trailing ' ') ++ ['\n'] ++ text =
      List.replicate indent ' ' ++
        ((name ++ (List.replicate (pad + 1) ' ' ++ '-' :: ' ' :: phrase.toList)) ++
          ((List.replicate trailing ' ' ++ ['\n']) ++ text)) := by simp
  rw [hsplit, Pattern.findAll_append_of_barren (barren_spaces (hspaces indent)),
    Pattern.findAll_of_matchAt (by simp [hname.nonempty]) (matchAt_name hphrase hname pad),
    Pattern.findAll_append_of_barren (barren_spaces hend)]

end Lines

section Printed

variable {phrase u v : List Char}

theorem prefix_of_prefix_append_cons {c : Char} (hc : c ∉ phrase) (h : phrase <+: u ++ c :: v) :
    phrase <+: u := by
  obtain ⟨y, hy⟩ := h
  rcases List.append_eq_append_iff.mp hy with ⟨w, hw, -⟩ | ⟨w, hw, hrest⟩
  · exact ⟨w, hw.symm⟩
  · cases w with
    | nil => exact ⟨[], by simpa using hw⟩
    | cons d w =>
      rw [List.cons_append] at hrest
      obtain ⟨rfl, -⟩ := List.cons.inj hrest
      exact absurd (by rw [hw]; simp) hc

/-- A line behind which a match may not go on, nor begin with it. -/
structure Opening (phrase line : List Char) : Prop where
  oneLine : '\n' ∉ line
  opening : (line.dropWhile space).head? ≠ some '-'
  silent : ¬ phrase <+: line.dropWhile space

theorem quiet_unlines (hphrase : IsPhrase phrase) {lines : List (List Char)}
    (h : ∀ line ∈ lines, Opening phrase line) : Quiet phrase (unlines lines) := by
  induction lines with
  | nil =>
    refine ⟨by decide, ?_⟩
    intro hpre
    exact hphrase.nonempty (List.prefix_nil.mp hpre)
  | cons line lines ih =>
    have hline := h line List.mem_cons_self
    have hquiet := ih fun l hl => h l (List.mem_cons_of_mem line hl)
    have heq : unlines (line :: lines) = line ++ '\n' :: unlines lines := by simp [unlines]
    cases hdrop : line.dropWhile space with
    | nil =>
      have hrest : (unlines (line :: lines)).dropWhile space = (unlines lines).dropWhile space := by
        rw [heq, List.dropWhile_append, hdrop]
        rfl
      exact ⟨hrest ▸ hquiet.opening, hrest ▸ hquiet.silent⟩
    | cons c cs =>
      have hrest : (unlines (line :: lines)).dropWhile space =
          line.dropWhile space ++ '\n' :: unlines lines := by
        rw [heq, List.dropWhile_append, hdrop]
        rfl
      refine ⟨?_, ?_⟩
      · have hopening := hline.opening
        rw [hdrop] at hopening
        rw [hrest, hdrop]
        exact hopening
      · rw [hrest]
        exact fun hpre => hline.silent (prefix_of_prefix_append_cons hphrase.oneLine hpre)

theorem not_infix_append_spaces (hlast : phrase.getLast? ≠ some ' ') (hne : phrase ≠ [])
    (h : ¬ phrase <:+: u) (n : ℕ) : ¬ phrase <:+: u ++ List.replicate n ' ' := by
  induction n with
  | zero => simpa using h
  | succ n ih =>
    rw [List.replicate_succ', ← List.append_assoc, List.infix_concat_iff]
    rintro (hsuffix | hinfix)
    · refine hlast ?_
      obtain ⟨w, hw⟩ := hsuffix
      have hend := congrArg List.getLast? hw
      rw [List.getLast?_append, List.getLast?_concat] at hend
      cases hphrase : phrase.getLast? with
      | none => exact absurd (List.getLast?_eq_none_iff.mp hphrase) hne
      | some c => simpa [hphrase] using hend
    · exact ih hinfix

variable {role : Role} {m : Member}

theorem spaces_replicate (n : ℕ) : ∀ c ∈ List.replicate n ' ', space c = true := by
  intro c hc
  rw [List.eq_of_mem_replicate hc]
  rfl

/-- The line of a member does not have the phrase of another role in it. -/
theorem not_infix_member (hname : IsUniqueName m.name.toList) (hrole : m.role ≠ role)
    (indent pad trailing : ℕ) :
    ¬ role.phrase.toList <:+: (Line.member indent pad trailing m).text := by
  obtain ⟨a, b, hsub, ha, hb⟩ := (isPhrase_phrase role).words
  intro hin
  rcases infix_append_cons (isPhrase_phrase role).noDash hin with hin | hin
  · exact not_infix_of_words hsub ha hb (spaces_replicate indent) hname.spaceless
      (spaces_replicate (pad + 1)) hin
  · revert hin
    apply not_infix_append_spaces
    · cases role <;> decide
    · exact (isPhrase_phrase role).nonempty
    · cases hm : m.role <;> cases role <;> first | exact absurd hm hrole | decide

theorem newline_notMem_member (hname : IsUniqueName m.name.toList) (indent pad trailing : ℕ) :
    '\n' ∉ (Line.member indent pad trailing m).text := by
  have hn : '\n' ∉ m.name.toList := fun h => absurd (hname.spaceless _ h) (by decide)
  have hp : '\n' ∉ m.role.phrase.toList := (isPhrase_phrase m.role).oneLine
  simp [Line.text, hn, hp]

theorem opening_member (hname : IsUniqueName m.name.toList) (indent pad trailing : ℕ) :
    Opening role.phrase.toList (Line.member indent pad trailing m).text := by
  obtain ⟨c, cs, hcs⟩ := List.exists_cons_of_ne_nil hname.nonempty
  have hc : space c = false := by simpa [nonSpace] using hname.spaceless c (by rw [hcs]; simp)
  have hdrop : (Line.member indent pad trailing m).text.dropWhile space =
      m.name.toList ++ List.replicate (pad + 1) ' ' ++
        '-' :: (' ' :: m.role.phrase.toList ++ List.replicate trailing ' ') := by
    rw [Line.text, List.append_assoc, List.append_assoc,
      dropWhile_spaces_append (spaces_replicate indent), hcs, List.cons_append,
      List.dropWhile_cons_of_neg (by simp [hc])]
    simp
  obtain ⟨a, b, hsub, ha, hb⟩ := (isPhrase_phrase role).words
  refine ⟨newline_notMem_member hname indent pad trailing, ?_, ?_⟩
  · rw [hdrop, hcs]
    have hdash : c ≠ '-' := by
      rintro rfl
      exact hname.noDash (by rw [hcs]; simp)
    simpa using hdash
  · rw [hdrop]
    intro hpre
    have hwords : ¬ role.phrase.toList <:+: [] ++ m.name.toList ++ List.replicate (pad + 1) ' ' :=
      not_infix_of_words hsub ha hb (by simp) hname.spaceless (spaces_replicate (pad + 1))
    exact hwords (prefix_of_prefix_append_cons (isPhrase_phrase role).noDash hpre).isInfix

theorem Plain.opens {line : List Char} (h : Plain line) : Opening role.phrase.toList line :=
  ⟨h.oneLine, h.opening,
    fun hpre => h.silent role (hpre.isInfix.trans (List.dropWhile_suffix space).isInfix)⟩

theorem Line.Proper.opening {line : Line} (h : line.Proper) :
    Opening role.phrase.toList line.text := by
  cases line with
  | member indent pad trailing m => exact opening_member h indent pad trailing
  | other text => exact Plain.opens h

theorem findAll_cons {line : List Char} {lines : List (List Char)} (hline : '\n' ∉ line)
    (hsilent : ¬ role.phrase.toList <:+: line)
    (hlines : ∀ l ∈ lines, Opening role.phrase.toList l) :
    (uniqueNameRe role.phrase).findAll 0 (unlines (line :: lines)) =
      (uniqueNameRe role.phrase).findAll 0 (unlines lines) :=
  Pattern.findAll_append_of_barren (barren_line (isPhrase_phrase role) hline hsilent
    (quiet_unlines (isPhrase_phrase role) hlines))

/-- The lines give the names of the members with the role. -/
theorem findAll_lines {lines : List Line} (h : ∀ line ∈ lines, line.Proper) :
    (uniqueNameRe role.phrase).findAll 0 (unlines (lines.map Line.text)) =
      ((lines.filterMap Line.member?).filter (·.role = role)).map (·.name.toList) := by
  induction lines with
  | nil => rfl
  | cons line lines ih =>
    have hline := h line List.mem_cons_self
    have hrest := ih fun l hl => h l (List.mem_cons_of_mem line hl)
    have hopening : ∀ l ∈ lines.map Line.text, Opening role.phrase.toList l := by
      intro l hl
      obtain ⟨k, hk, rfl⟩ := List.mem_map.mp hl
      exact (h k (List.mem_cons_of_mem line hk)).opening
    cases line with
    | member indent pad trailing m =>
      by_cases hrole : m.role = role
      · subst hrole
        rw [List.map_cons, unlines, List.flatMap_cons, Line.text,
          findAll_member (isPhrase_phrase m.role) hline, ← unlines, hrest]
        simp [Line.member?]
      · rw [List.map_cons, findAll_cons (newline_notMem_member hline indent pad trailing)
          (not_infix_member hline hrole indent pad trailing) hopening, hrest]
        simp [Line.member?, hrole]
    | other text =>
      have hplain : Plain text.toList := hline
      rw [List.map_cons, Line.text, findAll_cons hplain.oneLine (hplain.silent role) hopening, hrest]
      rfl

variable {s : Shown}

theorem opening_header (hs : s.Proper) {line : String} (hline : line ∈ s.header) :
    Opening role.phrase.toList line.toList := (hs.header line hline).1.opens

theorem silent_configurationLine (hs : s.Proper) :
    '\n' ∉ s.configurationLine ∧ ¬ role.phrase.toList <:+: s.configurationLine := by
  obtain ⟨a, b, hsub, ha, hb⟩ := (isPhrase_phrase role).words
  refine ⟨?_, ?_⟩
  · have hn : '\n' ∉ s.configuration.toList :=
      fun h => absurd (hs.configuration.spaceless _ h) (by decide)
    intro h
    rcases List.mem_append.mp h with h | h
    · exact absurd h (by decide)
    · have hrest : '\n' ∉ '-' :: ' ' :: s.configuration.toList := by simp [hn]
      exact hrest h
  · intro hin
    rcases infix_append_cons (isPhrase_phrase role).noDash hin with hin | hin
    · revert hin
      cases role <;> decide
    · have hwords : ¬ role.phrase.toList <:+: [' '] ++ s.configuration.toList ++ [] :=
        not_infix_of_words hsub ha hb spaces_blank hs.configuration.spaceless (by simp)
      exact hwords (by simpa using hin)

theorem opening_configurationLine (hs : s.Proper) :
    Opening role.phrase.toList s.configurationLine := by
  obtain ⟨hnl, hsilent⟩ := silent_configurationLine hs
  have hdrop : s.configurationLine.dropWhile space = s.configurationLine := rfl
  refine ⟨hnl, ?_, ?_⟩
  · rw [hdrop]
    exact fun h => absurd (Option.some.inj h) (by decide)
  · rw [hdrop]
    exact fun hpre => hsilent hpre.isInfix

/-- All names with a role, in the order of the lines. -/
theorem findAll_shown (hs : s.Proper) :
    (uniqueNameRe role.phrase).findAll 0 s.text.toList = (s.named role).map String.toList := by
  have hlines : ∀ l ∈ s.lines.map Line.text, Opening role.phrase.toList l := by
    intro l hl
    obtain ⟨k, hk, rfl⟩ := List.mem_map.mp hl
    exact (hs.lines k hk).opening
  have hconf : (uniqueNameRe role.phrase).findAll 0
      (unlines (s.configurationLine :: s.lines.map Line.text)) =
        (s.named role).map String.toList := by
    obtain ⟨hnl, hsilent⟩ := silent_configurationLine hs
    rw [findAll_cons hnl hsilent hlines, findAll_lines hs.lines, Shown.named, List.map_map]
    rfl
  have hheader : ∀ header : List String, (∀ line ∈ header, line ∈ s.header) →
      (uniqueNameRe role.phrase).findAll 0 (unlines (header.map String.toList ++
        s.configurationLine :: s.lines.map Line.text)) = (s.named role).map String.toList := by
    intro header hsub
    induction header with
    | nil => exact hconf
    | cons line header ih =>
      have hplain := (hs.header line (hsub line List.mem_cons_self)).1
      rw [List.map_cons, List.cons_append, findAll_cons hplain.oneLine (hplain.silent role) ?_]
      · exact ih fun l hl => hsub l (List.mem_cons_of_mem line hl)
      · intro l hl
        rcases List.mem_append.mp hl with hl | hl
        · obtain ⟨k, hk, rfl⟩ := List.mem_map.mp hl
          exact opening_header hs (hsub k (List.mem_cons_of_mem line hk))
        · rcases List.mem_cons.mp hl with rfl | hl
          · exact opening_configurationLine hs
          · exact hlines l hl
  rw [Shown.text, String.toList_ofList]
  exact hheader s.header fun _ h => h

theorem splits_configurationNameRe {text before group after tail : List Char}
    (h : configurationNameRe.Splits text before group after tail) :
    ∃ gap gap', IsWord group ∧ (∀ c ∈ gap, space c = true) ∧ (∀ c ∈ gap', space c = true) ∧
      before = "Configuration".toList ++ (gap ++ '-' :: gap') ∧ after = [] ∧
      text = "Configuration".toList ++ (gap ++ '-' :: (gap' ++ (group ++ tail))) := by
  obtain ⟨hbefore, hgroup, hafter, rfl⟩ := h
  obtain rfl := taken_nil.mp hafter
  obtain ⟨hne, hword⟩ := taken_plus.mp hgroup
  obtain ⟨word, rest, hlit, hrest, rfl⟩ := taken_append.mp hbefore
  obtain ⟨gap, rest', hgap, hrest', rfl⟩ := taken_append.mp hrest
  obtain ⟨dash, gap', hdash, hgap', rfl⟩ := taken_append.mp hrest'
  obtain rfl := taken_literal.mp hlit
  obtain rfl := taken_literal.mp hdash
  refine ⟨gap, gap', ⟨hne, hword⟩, taken_star.mp hgap, taken_star.mp hgap', rfl, rfl, ?_⟩
  simp only [List.append_assoc, List.cons_append, List.nil_append]

theorem IsWord.head?_append {name : List Char} (h : IsWord name) (text : List Char) :
    ∀ c ∈ (name ++ text).head?, space c = false := by
  obtain ⟨c, cs, rfl⟩ := List.exists_cons_of_ne_nil h.nonempty
  simpa [Broker.nonSpace] using h.spaceless c List.mem_cons_self

theorem find_configurationLine {name rest : List Char} (hname : IsWord name) :
    configurationNameRe.find ("Configuration ".toList ++ '-' :: ' ' :: name ++ '\n' :: rest) =
      some name := by
  have hword : "Configuration ".toList = "Configuration".toList ++ [' '] := by decide
  have htext : "Configuration ".toList ++ '-' :: ' ' :: name ++ '\n' :: rest =
      "Configuration".toList ++ ([' '] ++ '-' :: ([' '] ++ (name ++ '\n' :: rest))) := by
    rw [hword]
    simp only [List.append_assoc, List.cons_append, List.nil_append]
  rw [htext]
  have hsplits : configurationNameRe.Splits
      ("Configuration".toList ++ ([' '] ++ '-' :: ([' '] ++ (name ++ '\n' :: rest))))
      ("Configuration".toList ++ ([' '] ++ '-' :: [' '])) name [] ('\n' :: rest) := by
    refine ⟨?_, taken_plus.mpr ⟨hname.nonempty, hname.spaceless⟩, taken_nil.mpr rfl, ?_⟩
    · refine taken_append.mpr ⟨_, _, taken_literal.mpr rfl, ?_, rfl⟩
      refine taken_append.mpr ⟨[' '], _, taken_star.mpr spaces_blank, ?_, rfl⟩
      exact taken_append.mpr ⟨['-'], [' '], taken_literal.mpr rfl, taken_star.mpr spaces_blank, rfl⟩
    · simp only [List.append_assoc, List.cons_append, List.nil_append]
  obtain ⟨⟨group, n⟩, hmatch⟩ := Option.isSome_iff_exists.mp hsplits.isSome_matchAt
  obtain ⟨before, after, tail, hsplits', rfl⟩ := Pattern.splits_of_matchAt hmatch
  obtain ⟨gap, gap', hgroup, hgap, hgap', rfl, rfl, heq⟩ := splits_configurationNameRe hsplits'
  have hhead : ∀ rest : List Char, ∀ c ∈ ('-' :: rest).head?, space c = false := by
    rintro rest c ⟨⟩
    rfl
  obtain ⟨rfl, hdash⟩ : [' '] = gap ∧ _ := span_inj spaces_blank (hhead _) hgap (hhead _)
    (List.append_cancel_left heq)
  obtain ⟨rfl, hnames⟩ : [' '] = gap' ∧ _ := span_inj spaces_blank (hname.head?_append _) hgap'
    (hgroup.head?_append _) (List.cons.inj hdash).2
  have hends : ∀ e ∈ tail.head?, nonSpace e = false := by
    have hpieces : configurationNameRe.pieces =
        (configurationNameRe.before ++ [.one nonSpace]) ++ [.star nonSpace] := by
      simp [Pattern.pieces, configurationNameRe, plus]
    have hdrop := Pattern.matchAt_ends hpieces hmatch
    rw [heq] at hdrop
    simpa using hdrop
  obtain ⟨rfl, -⟩ := span_inj hname.spaceless (by simp; rfl) hgroup.spaceless hends hnames
  exact Pattern.find_of_matchAt hmatch

/-- A pattern that begins with a word has no match in a line without the word. -/
theorem barren_of_silent {r : Pattern} {word line text : List Char} {rest : List Piece}
    (hbefore : r.before = literal word ++ rest) (hword : '\n' ∉ word) (hne : word ≠ [])
    (hline : ¬ word <:+: line) : r.Barren (line ++ ['\n']) text := by
  intro u v hv hvne
  refine Pattern.matchAt_eq_none_iff.mpr ?_
  intro before group after tail hsplits
  have htaken := hsplits.takesBefore
  rw [hbefore] at htaken
  obtain ⟨lit, more, hlit, -, rfl⟩ := taken_append.mp htaken
  obtain rfl := taken_literal.mp hlit
  rcases List.append_eq_append_iff.mp hv with ⟨w, -, hw⟩ | ⟨w, hu, rfl⟩
  · rcases List.singleton_eq_append_iff.mp hw with ⟨-, rfl⟩ | ⟨-, rfl⟩
    · have heq := hsplits.eq
      obtain ⟨c, cs, rfl⟩ := List.exists_cons_of_ne_nil hne
      simp only [List.cons_append, List.nil_append, List.append_assoc] at heq
      exact hword (by rw [(List.cons.inj heq).1]; simp)
    · exact hvne rfl
  · have hpre : lit <+: w ++ '\n' :: text := by
      have heq := hsplits.eq
      rw [List.append_assoc, List.singleton_append, List.append_assoc] at heq
      rw [heq]
      exact List.prefix_append lit _
    exact hline ((prefix_of_prefix_append_cons hword hpre).isInfix.trans ⟨u, [], by simp [hu]⟩)

theorem find_configuration (hs : s.Proper) :
    configurationNameRe.find s.text.toList = some s.configuration.toList := by
  have hheader : ∀ header : List String, (∀ line ∈ header, line ∈ s.header) →
      configurationNameRe.find (unlines (header.map String.toList ++
        s.configurationLine :: s.lines.map Line.text)) = some s.configuration.toList := by
    intro header hsub
    induction header with
    | nil =>
      have htext : unlines (s.configurationLine :: s.lines.map Line.text) =
          s.configurationLine ++ '\n' :: unlines (s.lines.map Line.text) :=
        List.append_assoc _ _ _
      rw [List.map_nil, List.nil_append, htext]
      exact find_configurationLine hs.configuration
    | cons line header ih =>
      rw [List.map_cons, List.cons_append, unlines, List.flatMap_cons, ← unlines,
        Pattern.find_append_of_barren
          (barren_of_silent rfl (by decide) (by decide)
            (hs.header line (hsub line List.mem_cons_self)).2)]
      exact ih fun l hl => hsub l (List.mem_cons_of_mem line hl)
  rw [Shown.text, String.toList_ofList]
  exact hheader s.header fun _ h => h

theorem findAllStringSubmatch_shown (hs : s.Proper) (role : Role) :
    findAllStringSubmatch (uniqueNameRe role.phrase) s.text = s.named role := by
  rw [findAllStringSubmatch, findAll_shown hs, List.map_map]
  have hid : String.ofList ∘ String.toList = id := funext fun t => String.ofList_toList
  rw [hid, List.map_id]

theorem findStringSubmatch_shown (hs : s.Proper) (role : Role) :
    findStringSubmatch (uniqueNameRe role.phrase) s.text = (s.named role).head? := by
  have hnil : (uniqueNameRe role.phrase).matchAt [] = none := rfl
  rw [← findAllStringSubmatch_shown hs, findStringSubmatch, findAllStringSubmatch,
    Pattern.find_eq_head? hnil, List.head?_map]

theorem members_shown (hs : s.Proper) {primary : String} {others : List String}
    (hprimary : s.named .primary = primary :: others) :
    members [s.text] = .ok ⟨s.configuration, primary, s.named .physicalStandby,
      s.named .logicalStandby⟩ := by
  have hconf : findStringSubmatch configurationNameRe s.text = some s.configuration := by
    rw [findStringSubmatch, find_configuration hs, Option.map_some, String.ofList_toList]
  have hprim : findStringSubmatch primaryUniqueNameRe s.text = some primary := by
    have h := findStringSubmatch_shown hs .primary
    rw [hprimary] at h
    exact h
  have hphys : findAllStringSubmatch physicalStandbyUniqueNameRe s.text = s.named .physicalStandby :=
    findAllStringSubmatch_shown hs .physicalStandby
  have hlog : findAllStringSubmatch logicalStandbyUniqueNameRe s.text = s.named .logicalStandby :=
    findAllStringSubmatch_shown hs .logicalStandby
  simp only [members, hconf, hprim, hphys, hlog]

/-- Without a primary there is nothing to be read. -/
theorem members_ne_ok (hs : s.Proper) (hprimary : s.named .primary = []) (m : DgMembers) :
    members [s.text] ≠ .ok m := by
  intro hm
  have hnone : findStringSubmatch primaryUniqueNameRe s.text = none := by
    have h := findStringSubmatch_shown hs .primary
    rw [hprimary] at h
    exact h
  rw [members] at hm
  cases hconf : findStringSubmatch configurationNameRe s.text with
  | none =>
    rw [hconf] at hm
    cases hm
  | some configuration =>
    rw [hconf, hnone] at hm
    cases hm

/-- The members that are read are the ones that were printed, and there have to be some: the
first primary, and all standbys. -/
theorem members_text_eq_ok_iff (hs : s.Proper) (m : DgMembers) :
    members [s.text] = .ok m ↔ m.configuration = s.configuration ∧
      (s.named .primary).head? = some m.primary ∧
      m.physicalStandbys = s.named .physicalStandby ∧
      m.logicalStandbys = s.named .logicalStandby := by
  cases hprimary : s.named .primary with
  | nil => simp [members_ne_ok hs hprimary]
  | cons primary others =>
    rw [members_shown hs hprimary, List.head?_cons, Except.ok.injEq, Option.some.injEq]
    constructor
    · rintro rfl
      exact ⟨rfl, rfl, rfl, rfl⟩
    · rintro ⟨hconf, hprim, hphys, hlog⟩
      cases m
      subst hconf hprim hphys hlog
      rfl

/-- What a broker shows of a primary with one standby. -/
def sampleShown : Shown where
  header := [""]
  configuration := "operator_managed"
  lines := [.other "", .other "  Members:", .member 2 0 0 ⟨"gcloud_uscentral1a", .primary⟩,
    .member 4 4 1 ⟨"gcloud_mydb1", .physicalStandby⟩]

theorem proper_sampleShown : sampleShown.Proper := by decide +kernel

theorem members_text_sample :
    sampleShown.Proper ∧
      members [sampleShown.text] =
        .ok ⟨"operator_managed", "gcloud_uscentral1a", ["gcloud_mydb1"], []⟩ :=
  ⟨proper_sampleShown,
    (members_text_eq_ok_iff proper_sampleShown _).mpr (by decide +kernel)⟩

end Printed

section Identifier

theorem barren_spaces_of_word {r : Pattern} {word gap text : List Char} {rest : List Piece}
    (hbefore : r.before = literal word ++ rest) (hword : ∀ c ∈ word.head?, space c = false)
    (hne : word ≠ []) (hgap : ∀ c ∈ gap, space c = true) : r.Barren gap text := by
  intro u v hv hvne
  refine Pattern.matchAt_eq_none_iff.mpr ?_
  intro before group after tail hsplits
  have htaken := hsplits.takesBefore
  rw [hbefore] at htaken
  obtain ⟨lit, more, hlit, -, rfl⟩ := taken_append.mp htaken
  obtain rfl := taken_literal.mp hlit
  obtain ⟨c, cs, rfl⟩ := List.exists_cons_of_ne_nil hvne
  obtain ⟨d, ds, rfl⟩ := List.exists_cons_of_ne_nil hne
  have heq := hsplits.eq
  rw [List.cons_append, List.cons_append, List.cons_append] at heq
  obtain ⟨rfl, -⟩ := List.cons.inj heq
  have hspace := hgap c (by rw [hv]; simp)
  rw [hword c rfl] at hspace
  cases hspace

theorem splits_connRe {text before group after tail : List Char}
    (h : connRe.Splits text before group after tail) :
    ∃ gap gap', IsWord group ∧ (∀ c ∈ gap, space c = true) ∧ (∀ c ∈ gap', space c = true) ∧
      text = "DGConnectIdentifier".toList ++
        (gap ++ '=' :: (gap' ++ quote :: (group ++ quote :: tail))) := by
  obtain ⟨hbefore, hgroup, hafter, rfl⟩ := h
  obtain rfl := taken_literal.mp hafter
  obtain ⟨hne, hword⟩ := taken_plus.mp hgroup
  obtain ⟨word, rest, hlit, hrest, rfl⟩ := taken_append.mp hbefore
  obtain ⟨gap, rest', hgap, hrest', rfl⟩ := taken_append.mp hrest
  obtain ⟨eq, rest'', heq, hrest'', rfl⟩ := taken_append.mp hrest'
  obtain ⟨gap', lit, hgap', hquote, rfl⟩ := taken_append.mp hrest''
  obtain rfl := taken_literal.mp hlit
  obtain rfl := taken_literal.mp heq
  obtain rfl := taken_literal.mp hquote
  refine ⟨gap, gap', ⟨hne, hword⟩, taken_star.mp hgap, taken_star.mp hgap', ?_⟩
  simp only [List.append_assoc, List.cons_append, List.nil_append]

/-- A word up to the first quote, when no other quote is in a word with it. -/
theorem quoted_inj {name word rest tail : List Char} (hname : quote ∉ name) (hword : IsWord word)
    (h : name ++ quote :: '\n' :: rest = word ++ quote :: tail) : name = word := by
  rcases List.append_eq_append_iff.mp h with ⟨w, hw, hrest⟩ | ⟨w, hw, hrest⟩
  · cases w with
    | nil => simpa using hw.symm
    | cons c w =>
      rw [List.cons_append] at hrest
      cases w with
      | nil => exact absurd (List.cons.inj (List.cons.inj hrest).2).1 (by decide)
      | cons d w =>
        rw [List.cons_append] at hrest
        obtain ⟨rfl, -⟩ := List.cons.inj (List.cons.inj hrest).2
        exact absurd (hword.spaceless '\n' (by rw [hw]; simp)) (by decide)
  · cases w with
    | nil => simpa using hw
    | cons c w =>
      rw [List.cons_append] at hrest
      obtain ⟨rfl, -⟩ := List.cons.inj hrest
      exact absurd (by rw [hw]; simp) hname

theorem find_identifier {name rest : List Char} (hname : IsWord name) (hquote : quote ∉ name) :
    connRe.find ("DGConnectIdentifier".toList ++
      ([' '] ++ '=' :: ([' '] ++ quote :: (name ++ quote :: '\n' :: rest)))) = some name := by
  have hsplits : connRe.Splits ("DGConnectIdentifier".toList ++
      ([' '] ++ '=' :: ([' '] ++ quote :: (name ++ quote :: '\n' :: rest))))
      ("DGConnectIdentifier".toList ++ ([' '] ++ '=' :: ([' '] ++ [quote]))) name [quote]
      ('\n' :: rest) := by
    refine ⟨?_, taken_plus.mpr ⟨hname.nonempty, hname.spaceless⟩, taken_literal.mpr rfl, ?_⟩
    · refine taken_append.mpr ⟨_, _, taken_literal.mpr rfl, ?_, rfl⟩
      refine taken_append.mpr ⟨[' '], _, taken_star.mpr spaces_blank, ?_, rfl⟩
      refine taken_append.mpr ⟨['='], _, taken_literal.mpr rfl, ?_, rfl⟩
      exact taken_append.mpr ⟨[' '], [quote], taken_star.mpr spaces_blank, taken_literal.mpr rfl, rfl⟩
    · simp only [List.append_assoc, List.cons_append, List.nil_append]
  obtain ⟨⟨group, n⟩, hmatch⟩ := Option.isSome_iff_exists.mp hsplits.isSome_matchAt
  obtain ⟨before, after, tail, hsplits', -⟩ := Pattern.splits_of_matchAt hmatch
  obtain ⟨gap, gap', hgroup, hgap, hgap', heq⟩ := splits_connRe hsplits'
  have hhead : ∀ (c : Char) (rest : List Char), space c = false →
      ∀ d ∈ (c :: rest).head?, space d = false := by
    rintro c rest hc d ⟨⟩
    exact hc
  obtain ⟨rfl, hrest⟩ : [' '] = gap ∧ _ := span_inj spaces_blank (hhead '=' _ rfl) hgap
    (hhead '=' _ rfl) (List.append_cancel_left heq)
  obtain ⟨rfl, hnames⟩ : [' '] = gap' ∧ _ := span_inj spaces_blank (hhead quote _ rfl) hgap'
    (hhead quote _ rfl) (List.cons.inj hrest).2
  obtain rfl := quoted_inj hquote hgroup (List.cons.inj hnames).2
  exact Pattern.find_of_matchAt hmatch

/-- The identifier that is read is the one that was printed. -/
theorem connectIdentifier_shown {s : ShownIdentifier} (hs : s.Proper) :
    connectIdentifier [s.text] = .ok s.identifier := by
  have hline : ∀ header : List String, (∀ line ∈ header, line ∈ s.header) →
      connRe.find (unlines (header.map String.toList) ++ (List.replicate s.indent ' ' ++
        ("DGConnectIdentifier".toList ++ (' ' :: '=' :: ' ' :: quote ::
          (s.identifier.toList ++ [quote, '\n']))))) = some s.identifier.toList := by
    intro header hsub
    induction header with
    | nil =>
      rw [List.map_nil, unlines, List.flatMap_nil, List.nil_append, Pattern.find_append_of_barren
        (barren_spaces_of_word rfl (by rintro c ⟨⟩; rfl) (by decide) (spaces_replicate s.indent))]
      exact find_identifier hs.word hs.noQuote
    | cons line header ih =>
      rw [List.map_cons, unlines, List.flatMap_cons, ← unlines, List.append_assoc,
        Pattern.find_append_of_barren (barren_of_silent rfl (by decide) (by decide)
          (hs.header line (hsub line List.mem_cons_self)))]
      exact ih fun l hl => hsub l (List.mem_cons_of_mem line hl)
  have hfind : findStringSubmatch connRe s.text = some s.identifier := by
    rw [findStringSubmatch, ShownIdentifier.text, String.toList_ofList,
      hline s.header fun _ h => h, Option.map_some, String.ofList_toList]
  simp only [connectIdentifier, hfind]

end Identifier

end ElCarro.StandbyDR.Broker
