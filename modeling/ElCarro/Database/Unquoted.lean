import ElCarro.Database.Queries
import ElCarro.Database.Suppression
import ElCarro.Instance.ParameterTable

/-! # Names outside quotes

A PDB is created under a quoted name, but closed and dropped under one without quotes, and
a parameter is set by a statement that has its name and, unless it is a string, its value
as they are. The engine reads a name outside quotes as such only when it is a plain word
that is not reserved, and a value up to the comment that two dashes open.
-/

namespace ElCarro.Databases.Unquoted

open Users Queries SqlLexer Instance.Parameters

section Names

/-- What the engine takes for a name that has no quotes. -/
structure Lexicon (casing : Casing) extends Alphabet where
  reserved : String → Bool
  /-- A word that begins with a letter is one in upper case too. -/
  upper : ∀ w : String, w.toList.head?.any letter = true →
    (∀ c ∈ w.toList, toAlphabet.isWord c = true) →
    (casing.toUpper w).toList.head?.any letter = true ∧
      ∀ c ∈ (casing.toUpper w).toList, toAlphabet.isWord c = true

variable {casing : Casing} (lex : Lexicon casing)

namespace Lexicon

def isName (name : String) : Bool :=
  name.toList.head?.any lex.letter && name.toList.all lex.isWord &&
    !lex.reserved (casing.toUpper name)

/-- The object that a token stands for; names outside quotes are taken in upper case. -/
inductive Denotes : Token → String → Prop where
  | quoted (name : String) : Denotes (quotedToken name) name
  | word (w : String) : lex.isName w = true → Denotes (.word w.toList) (casing.toUpper w)

end Lexicon

end Names

section Deletion

variable (casing : Casing)

/-- How the engine answers while a database is deleted. -/
structure Answers where
  connected : Bool
  /-- Whether there is such a PDB, or `none` for an error. -/
  check : Option Bool
  close : Bool
  drop : Bool
  deriving DecidableEq, Repr

def pdbCheckCmd (pdbName : String) : String :=
  "select open_mode, restricted from v$pdbs where name = '" ++ stringParam pdbName ++ "'"

def closePdbCmd (pdbName : String) : String :=
  "alter pluggable database " ++ stringParam pdbName ++ " close immediate"

def deletePdbCmd (pdbName : String) : String :=
  "drop pluggable database " ++ stringParam pdbName ++ " including datafiles"

/-- `DeleteDatabase`: the statements that are sent, and whether there was no error. -/
def deleteDatabase (env : Answers) (name : String) : List String × Bool :=
  let pdbName := casing.toUpper name
  if ¬ env.connected then ([], false)
  else match env.check with
    | none => ([pdbCheckCmd pdbName], false)
    | some false => ([pdbCheckCmd pdbName], true)
    | some true =>
      if ¬ env.close then ([pdbCheckCmd pdbName, closePdbCmd pdbName], false)
      else ([pdbCheckCmd pdbName, closePdbCmd pdbName, deletePdbCmd pdbName], env.drop)

inductive Clause where
  | check | close | drop
  deriving DecidableEq, Repr

variable {casing}

/-- A statement does this to the PDB, and nothing else. -/
def Clause.Does (lex : Lexicon casing) (pdb sql : String) : Clause → Prop
  | check => lex.tokens sql.toList = some (template "select open_mode" ++ .symbol ',' ::
      (template "restricted from v$pdbs where name" ++ [.symbol '=', literalToken pdb]))
  | close => ∃ t, lex.Denotes t pdb ∧ lex.tokens sql.toList =
      some (template "alter pluggable database" ++ t :: template "close immediate")
  | drop => ∃ t, lex.Denotes t pdb ∧ lex.tokens sql.toList =
      some (template "drop pluggable database" ++ t :: template "including datafiles")

/-- A statement creates the PDB. -/
def Creates (lex : Lexicon casing) (pdb sql : String) : Prop :=
  ∃ t ts, lex.Denotes t pdb ∧
    lex.tokens sql.toList = some (template "create pluggable database" ++ t :: ts)

/-- Whatever is created for a name is what is looked up, closed and dropped for it. -/
def DeletesExactly (lex : Lexicon casing) (toLower : String → String) (name : String) : Prop :=
  ∀ cdbName pass sql pdb,
    query casing (.createPDB (buildPDB casing toLower cdbName name pass)) = some sql →
    Creates lex pdb sql → ∀ env, List.Forall₂ (fun sql clause => clause.Does lex pdb sql)
      (deleteDatabase casing env name).1
      ([Clause.check, .close, .drop].take (deleteDatabase casing env name).1.length)

section Reading

variable {lex : Lexicon casing} {name : String}

theorem isName_iff : lex.isName name = true ↔ name.toList.head?.any lex.letter = true ∧
    (∀ c ∈ name.toList, lex.isWord c = true) ∧ lex.reserved (casing.toUpper name) = false := by
  simp only [Lexicon.isName, Bool.and_eq_true, List.all_eq_true, Bool.not_eq_true', and_assoc]

theorem ne_nil_of_isName (h : lex.isName name = true) : name.toList ≠ [] := by
  intro hnil
  have hhead := (isName_iff.mp h).1
  rw [hnil] at hhead
  cases hhead

theorem isName_toUpper (h : lex.isName name = true) : lex.isName (casing.toUpper name) = true := by
  obtain ⟨hletter, hwords, hreserved⟩ := isName_iff.mp h
  obtain ⟨hletter', hwords'⟩ := lex.upper name hletter hwords
  refine isName_iff.mpr ⟨hletter', hwords', ?_⟩
  rwa [casing.toUpper_toUpper]

theorem toList_stringParam_of_isName (h : lex.isName name = true) :
    (stringParam name).toList = name.toList := by
  rw [toList_stringParam, escape, replaceChar_of_notMem]
  intro hquote
  have hword := (isName_iff.mp h).2.1 _ hquote
  rw [not_isWord_of_mem (by decide)] at hword
  cases hword

/-- A name stands for itself between two fixed texts. -/
theorem tokens_around {before after : String} {ts us : List Token}
    (hbefore : ∀ ys, lex.tokens (before.toList ++ ys) = (lex.tokens ys).map (ts ++ ·))
    (hafter : lex.tokens after.toList = some us) (hblank : after.toList.head? = some ' ')
    (h : lex.isName name = true) :
    lex.tokens (before ++ stringParam name ++ after).toList =
      some (ts ++ .word name.toList :: us) := by
  have hhead : ∀ c ∈ after.toList.head?, lex.isWord c = false := by
    rw [hblank]
    rintro _ ⟨⟩
    exact not_isWord_of_mem (by decide)
  rw [String.toList_append, String.toList_append, List.append_assoc, hbefore,
    toList_stringParam_of_isName h,
    tokens_word (ne_nil_of_isName h) (isName_iff.mp h).2.1 hhead, hafter]
  rfl

theorem does_check (pdb : String) : Clause.Does lex pdb (pdbCheckCmd pdb) .check := by
  have hopen : lex.scan .between "select open_mode, restricted from v$pdbs where name = '".toList =
      (.literal [], template "select open_mode" ++ .symbol ',' ::
        (template "restricted from v$pdbs where name" ++ [.symbol '='])) :=
    scan_fixed (by decide +kernel) (by decide +kernel)
  refine (tokens_lastPath hopen).trans (congrArg some ?_)
  rw [List.append_assoc, List.cons_append, List.append_assoc]
  rfl

theorem does_close (h : lex.isName (casing.toUpper name) = true) :
    Clause.Does lex (casing.toUpper name) (closePdbCmd (casing.toUpper name)) .close := by
  have hdenotes := Lexicon.Denotes.word _ h
  rw [casing.toUpper_toUpper] at hdenotes
  refine ⟨_, hdenotes, tokens_around (fun _ => tokens_fixed (by decide +kernel) (by decide +kernel))
    ?_ (by decide +kernel) h⟩
  exact (tokens_of_ascii (by decide +kernel)).trans (by decide +kernel)

theorem does_drop (h : lex.isName (casing.toUpper name) = true) :
    Clause.Does lex (casing.toUpper name) (deletePdbCmd (casing.toUpper name)) .drop := by
  have hdenotes := Lexicon.Denotes.word _ h
  rw [casing.toUpper_toUpper] at hdenotes
  refine ⟨_, hdenotes, tokens_around (fun _ => tokens_fixed (by decide +kernel) (by decide +kernel))
    ?_ (by decide +kernel) h⟩
  exact (tokens_of_ascii (by decide +kernel)).trans (by decide +kernel)

theorem creates_iff {toLower : String → String} {cdbName pass sql pdb : String}
    (h : query casing (.createPDB (buildPDB casing toLower cdbName name pass)) = some sql) :
    Creates lex pdb sql ↔ pdb = casing.toUpper name := by
  have hread := @tokens_queryCreatePDB lex.toAlphabet casing _ _ _ _ _ _ _ _ _ h
  have hname : casing.toUpper (buildPDB casing toLower cdbName name pass).pluggableDatabaseName =
      casing.toUpper name := casing.toUpper_toUpper name
  rw [hname] at hread
  constructor
  · rintro ⟨t, ts, hdenotes, htokens⟩
    have heq := List.append_cancel_left (Option.some.inj (htokens.symm.trans hread))
    cases hdenotes with
    | quoted => exact String.toList_inj.mp (Token.quoted.inj (List.cons.inj heq).1)
    | word w _ => cases (List.cons.inj heq).1
  · rintro rfl
    exact ⟨_, _, .quoted _, hread⟩

theorem mem_around {before after : String} {c : Char}
    (h : c ∈ (before ++ stringParam name ++ after).toList) :
    c ∈ before.toList ∨ c ∈ name.toList ∨ c ∈ after.toList := by
  rw [String.toList_append, String.toList_append, toList_stringParam, List.mem_append,
    List.mem_append] at h
  rcases h with (h | h) | h
  · exact .inl h
  · exact .inr (.inl (mem_of_mem_escape h))
  · exact .inr (.inr h)

/-- No identifier in quotes is read from a name that has none. -/
theorem isName_of_does_close (h : Clause.Does lex name (closePdbCmd name) .close) :
    lex.isName name = true := by
  obtain ⟨t, hdenotes, htokens⟩ := h
  cases hdenotes with
  | quoted =>
    have hsound := tokens_sound htokens (quotedToken name)
      (List.mem_append_right _ List.mem_cons_self)
    obtain ⟨hnot, hquote⟩ : '"' ∉ name.toList ∧ '"' ∈ (closePdbCmd name).toList := hsound
    rcases mem_around hquote with hbefore | hname | hafter
    · exact absurd hbefore (by decide +kernel)
    · exact absurd hname hnot
    · exact absurd hafter (by decide +kernel)
  | word w hw => exact isName_toUpper hw

theorem exists_query_createPDB {toLower : String → String} {spec : DatabaseSpec}
    (hkeeps : casing.Keeps) (hvalid : validateSpec spec = none) :
    ∃ sql, query casing (.createPDB (buildPDB casing toLower "" spec.name "")) = some sql := by
  have hname := hkeeps.identifier _ (valid_of_validateSpec hvalid).1
  have hupper := hkeeps.identifier _ hname
  have hadmin := hkeeps.identifier pdbAdmin (by decide +kernel)
  have hspace : isIdentifier (casing.toUpper spec.name ++ "_USERS") = true := by
    have hnot : '"' ∉ (casing.toUpper spec.name).toList := of_decide_eq_true hname
    apply decide_eq_true
    rw [String.toList_append, List.mem_append, not_or]
    exact ⟨hnot, by decide⟩
  have hspace' := hkeeps.identifier _ hspace
  rw [query_eq, if_pos]
  · exact ⟨_, rfl⟩
  · simp only [Statement.valid, buildPDB, hupper, hadmin, hspace']
    decide +kernel

theorem deletesExactly_iff {toLower : String → String} {spec : DatabaseSpec}
    (hkeeps : casing.Keeps) (hvalid : validateSpec spec = none) :
    DeletesExactly lex toLower spec.name ↔ lex.isName (casing.toUpper spec.name) = true := by
  constructor
  · intro h
    obtain ⟨sql, hsql⟩ := @exists_query_createPDB casing toLower spec hkeeps hvalid
    have hsends := h "" "" sql _ hsql ((creates_iff hsql).mpr rfl) ⟨true, some true, true, true⟩
    obtain ⟨-, hclose, -⟩ := List.forall₂_cons.mp hsends |>.imp_right List.forall₂_cons.mp
    exact isName_of_does_close hclose
  · intro hname cdbName pass sql pdb hsql hcreates env
    obtain rfl := (creates_iff hsql).mp hcreates
    have hcheck := @does_check casing lex (casing.toUpper spec.name)
    have hclose := does_close hname
    have hdrop := does_drop hname
    unfold deleteDatabase
    dsimp only
    split
    · exact .nil
    · split
      · exact .cons hcheck .nil
      · exact .cons hcheck .nil
      · split
        · exact .cons hcheck (.cons hclose .nil)
        · exact .cons hcheck (.cons hclose (.cons hdrop .nil))

end Reading

end Deletion

section Parameters

/-- A parameter's type and its data type, as the engine reports them. -/
structure Report where
  paramType : String
  paramDatatype : String
  deriving DecidableEq, Repr

def querySetSystemParameterNoPanic (name value : String) (isTypeString : Bool) : Option String :=
  if ¬ isValidParameterValue value isTypeString then none
  else some ("alter system set " ++ name ++ "=" ++
    if isTypeString then "'" ++ stringParam value ++ "'" else value)

/-- The statement of `SetParameter`, if it comes to one. -/
def setParameterCommand (r : Report) (key value : String) : Option String :=
  (querySetSystemParameterNoPanic key value (r.paramDatatype = "2")).map fun command =>
    let command := if r.paramType = "FALSE" ∨ key ∈ overrideParamTypeStatic then
      command ++ " scope=spfile" else command
    if r.paramType = "DEFERRED" then command ++ " deferred" else command

/-- The clauses after the value. -/
def scopeTokens (r : Report) (key : String) : List Token :=
  (if r.paramType = "FALSE" ∨ key ∈ overrideParamTypeStatic then
    template "scope" ++ .symbol '=' :: template "spfile" else []) ++
  if r.paramType = "DEFERRED" then template "deferred" else []

variable {casing : Casing}

/-- The tokens of a value: a literal, or what the value is spelled with. -/
def ValueTokens (lex : Lexicon casing) (isTypeString : Bool) (value : String) (ts : List Token) :
    Prop :=
  if isTypeString then ts = [literalToken value]
  else lex.tokens value.toList = some ts ∧ spelling ts = value.toList

/-- A statement sets the parameter to the value and does nothing else. -/
def SetsExactly (lex : Lexicon casing) (r : Report) (key value sql : String) : Prop :=
  lex.isName key = true ∧ ∃ ts, ValueTokens lex (r.paramDatatype = "2") value ts ∧
    lex.tokens sql.toList = some (template "alter system set" ++ .word key.toList ::
      .symbol '=' :: (ts ++ scopeTokens r key))

section Values

variable {lex : Lexicon casing} {r : Report} {key value sql : String}

/-- The clauses after the value, as they are written. -/
def scopeText (r : Report) (key : String) : String :=
  (if r.paramType = "FALSE" ∨ key ∈ overrideParamTypeStatic then " scope=spfile" else "") ++
    if r.paramType = "DEFERRED" then " deferred" else ""

def valueText (isTypeString : Bool) (value : String) : String :=
  if isTypeString then "'" ++ stringParam value ++ "'" else value

theorem setParameterCommand_eq_some (h : setParameterCommand r key value = some sql) :
    isValidParameterValue value (r.paramDatatype = "2") = true ∧
      sql = "alter system set " ++ (key ++ ("=" ++
        (valueText (r.paramDatatype = "2") value ++ scopeText r key))) := by
  obtain ⟨command, hcommand, rfl⟩ := Option.map_eq_some_iff.mp h
  rw [querySetSystemParameterNoPanic, Option.ite_none_left_eq_some, not_not] at hcommand
  obtain ⟨hvalid, hcommand⟩ := hcommand
  obtain rfl := Option.some.inj hcommand
  refine ⟨hvalid, ?_⟩
  unfold scopeText valueText
  split_ifs <;> simp only [String.append_assoc, String.append_empty, String.empty_append]

theorem blank_of_all {text : String} (h : text.toList.head?.all (· == ' ') = true) :
    ∀ c ∈ text.toList.head?, c = ' ' := by
  intro c hc
  rw [Option.mem_def.mp hc] at h
  exact eq_of_beq h

theorem tokens_scopeText : lex.tokens (scopeText r key).toList = some (scopeTokens r key) ∧
    ∀ c ∈ (scopeText r key).toList.head?, c = ' ' := by
  unfold scopeText scopeTokens
  split_ifs
  all_goals
    exact ⟨(tokens_of_ascii (by decide +kernel)).trans (by decide +kernel),
      blank_of_all (by decide +kernel)⟩

theorem isWord_of_matches (h : parameterNonStringMatcher value = true) :
    ∀ c ∈ value.toList, lex.isWord c = true ∨ c = '-' := by
  intro c hc
  rw [parameterNonStringMatcher, decide_eq_true_eq, List.all_eq_true] at h
  have hchar := h.2 c hc
  rw [Char.isAlphanum, Bool.or_eq_true, Bool.or_eq_true, decide_eq_true_eq] at hchar
  rcases hchar with (halpha | hdigit) | hdash
  · exact .inl (isWord_of_isAlpha halpha)
  · refine .inl ?_
    simp [Alphabet.isWord, hdigit]
  · exact .inr hdash

/-- A value is read as it is spelled, and what follows it is not touched. -/
theorem tokens_valueText {isTypeString : Bool} {ys : List Char}
    (hvalid : isValidParameterValue value isTypeString = true)
    (hno : isTypeString = true ∨ ¬ ['-', '-'] <:+: value.toList) (hys : ∀ c ∈ ys.head?, c = ' ') :
    ∃ ts, ValueTokens lex isTypeString value ts ∧
      lex.tokens ((valueText isTypeString value).toList ++ ys) = (lex.tokens ys).map (ts ++ ·) := by
  cases isTypeString with
  | true =>
    refine ⟨[literalToken value], rfl, ?_⟩
    have hne : ys.head? ≠ some '\'' := by
      intro hquote
      have hblank := hys _ hquote
      revert hblank
      decide
    have hlist : (valueText true value).toList ++ ys =
        '\'' :: (escape value.toList ++ '\'' :: ys) := by
      simp [valueText, toList_stringParam]
    rw [hlist, tokens_literal hne]
    rfl
  | false =>
    have hwords := @isWord_of_matches casing lex value hvalid
    obtain ⟨us, hus, hspell⟩ := scan_dashed (.between : Dashed lex.toAlphabet _ _) hwords
      (hno.resolve_left Bool.false_ne_true)
    refine ⟨(lex.scan .between value.toList).2 ++ us, ⟨?_, hspell⟩, ?_⟩
    · exact tokens_of_scan rfl (hus.ends hys).finish
    · exact tokens_append rfl (hus.ends hys)

theorem setsExactly_iff (h : setParameterCommand r key value = some sql) :
    SetsExactly lex r key value sql ↔ lex.isName key = true ∧
      (r.paramDatatype = "2" ∨ ¬ ['-', '-'] <:+: value.toList) := by
  obtain ⟨hvalid, rfl⟩ := setParameterCommand_eq_some h
  refine and_congr_right fun hkey => ?_
  constructor
  · rintro ⟨ts, hvalue, -⟩
    by_cases hstring : r.paramDatatype = "2"
    · exact .inl hstring
    · refine .inr fun hin => ?_
      rw [decide_eq_false hstring] at hvalid hvalue
      obtain ⟨htokens, hspell⟩ := hvalue
      obtain ⟨hline, hlength⟩ := scan_dashed_comment (.between : Dashed lex.toAlphabet _ _)
        (isWord_of_matches hvalid) hin
      rw [Alphabet.tokens, hline] at htokens
      have hts : (lex.scan .between value.toList).2 ++ [] = ts := Option.some.inj htokens
      rw [List.append_nil] at hts
      rw [hts, hspell] at hlength
      exact absurd hlength (lt_irrefl _)
  · intro hcond
    obtain ⟨hscope, hblank⟩ := @tokens_scopeText casing lex r key
    obtain ⟨ts, hvalue, hread⟩ := @tokens_valueText casing lex value _ _ hvalid
      (hcond.imp_left decide_eq_true) hblank
    refine ⟨ts, hvalue, ?_⟩
    have hcmd : ∀ ys, lex.tokens ("alter system set ".toList ++ ys) =
        (lex.tokens ys).map (template "alter system set" ++ ·) :=
      fun _ => tokens_fixed (by decide +kernel) (by decide +kernel)
    have hequals : ∀ ys, lex.tokens ("=".toList ++ ys) =
        (lex.tokens ys).map ([.symbol '='] ++ ·) :=
      fun _ => tokens_fixed (by decide +kernel) (by decide +kernel)
    have hhead : ∀ ys, ∀ c ∈ ("=".toList ++ ys).head?, lex.isWord c = false := by
      rintro ys _ ⟨⟩
      exact not_isWord_of_mem (by decide)
    simp only [String.toList_append]
    rw [hcmd, tokens_word (ne_nil_of_isName hkey) (isName_iff.mp hkey).2.1 (hhead _), hequals,
      hread, hscope]
    rfl

end Values

end Parameters

section Results

variable {casing : Casing}

/-- Names outside quotes, and values that are not strings, must be plain ones. -/
theorem unquoted_exact_iff (lex : Lexicon casing) (hkeeps : casing.Keeps) :
    (∀ (toLower : String → String) (spec : DatabaseSpec), validateSpec spec = none →
      (DeletesExactly lex toLower spec.name ↔ lex.isName (casing.toUpper spec.name) = true)) ∧
    ∀ (r : Report) (key value sql : String), setParameterCommand r key value = some sql →
      (SetsExactly lex r key value sql ↔ lex.isName key = true ∧
        (r.paramDatatype = "2" ∨ ¬ ['-', '-'] <:+: value.toList)) := by
  constructor
  · intro toLower spec hvalid
    exact deletesExactly_iff hkeeps hvalid
  · intro r key value sql hsql
    exact setsExactly_iff hsql

def reservedWords : List String :=
  ["ACCESS", "ADD", "ALL", "ALTER", "AND", "ANY", "AS", "ASC", "AUDIT", "BETWEEN", "BY", "CHAR",
    "CHECK", "CLUSTER", "COLUMN", "COLUMN_VALUE", "COMMENT", "COMPRESS", "CONNECT", "CREATE",
    "CURRENT", "DATE", "DECIMAL", "DEFAULT", "DELETE", "DESC", "DISTINCT", "DROP", "ELSE",
    "EXCLUSIVE", "EXISTS", "FILE", "FLOAT", "FOR", "FROM", "GRANT", "GROUP", "HAVING",
    "IDENTIFIED", "IMMEDIATE", "IN", "INCREMENT", "INDEX", "INITIAL", "INSERT", "INTEGER",
    "INTERSECT", "INTO", "IS", "LEVEL", "LIKE", "LOCK", "LONG", "MAXEXTENTS", "MINUS", "MLSLABEL",
    "MODE", "MODIFY", "NESTED_TABLE_ID", "NOAUDIT", "NOCOMPRESS", "NOT", "NOWAIT", "NULL", "NUMBER",
    "OF", "OFFLINE", "ON", "ONLINE", "OPTION", "OR", "ORDER", "PCTFREE", "PRIOR", "PUBLIC", "RAW",
    "RENAME", "RESOURCE", "REVOKE", "ROW", "ROWID", "ROWNUM", "ROWS", "SELECT", "SESSION", "SET",
    "SHARE", "SIZE", "SMALLINT", "START", "SUCCESSFUL", "SYNONYM", "SYSDATE", "TABLE", "THEN", "TO",
    "TRIGGER", "UID", "UNION", "UNIQUE", "UPDATE", "USER", "VALIDATE", "VALUES", "VARCHAR",
    "VARCHAR2", "VIEW", "WHENEVER", "WHERE", "WITH"]

theorem isWord_toUpper {c : Char} (h : Alphabet.basic.isWord c = true) :
    Alphabet.basic.isWord c.toUpper = true := by
  rcases toUpper_eq_or_isAlpha c with heq | halpha
  · rwa [heq]
  · exact isWord_of_isAlpha halpha

theorem isAlpha_toUpper {c : Char} (h : c.isAlpha = true) : c.toUpper.isAlpha = true := by
  rcases toUpper_eq_or_isAlpha c with heq | halpha
  · rwa [heq]
  · exact halpha

/-- The names of an engine whose letters are those of one script. -/
def asciiLexicon : Lexicon asciiCasing where
  toAlphabet := .basic
  reserved name := name ∈ reservedWords
  upper w hletter hwords := by
    simp only [asciiCasing, String.toList_ofList, List.head?_map, Option.any_map, List.mem_map]
    constructor
    · obtain ⟨c, hc, hletter⟩ := Option.any_eq_true _ _ |>.mp hletter
      rw [hc]
      exact isAlpha_toUpper hletter
    · rintro _ ⟨c, hc, rfl⟩
      exact isWord_toUpper (hwords c hc)

def namedSpec (name : String) : DatabaseSpec := ⟨name, "", none, []⟩

theorem pdb1_exact :
    DeletesExactly asciiLexicon String.toLower "pdb1" ∧
      ∃ sql, setParameterCommand ⟨"IMMEDIATE", "3"⟩ "open_cursors" "300" = some sql ∧
        SetsExactly asciiLexicon ⟨"IMMEDIATE", "3"⟩ "open_cursors" "300" sql := by
  obtain ⟨hdelete, hset⟩ := unquoted_exact_iff asciiLexicon asciiCasing_keeps
  constructor
  · exact (hdelete String.toLower (namedSpec "pdb1") (by decide +kernel)).mpr (by decide +kernel)
  · refine ⟨_, rfl, (hset _ _ _ _ rfl).mpr ?_⟩
    decide +kernel

/-- A name that begins with a digit, and a value with two dashes. -/
theorem digit_and_dashes_not_exact :
    validateSpec (namedSpec "1pdb") = none ∧
      ¬ DeletesExactly asciiLexicon String.toLower "1pdb" ∧
      ∃ sql, setParameterCommand ⟨"FALSE", "3"⟩ "processes" "300--" = some sql ∧
        ¬ SetsExactly asciiLexicon ⟨"FALSE", "3"⟩ "processes" "300--" sql := by
  have hvalid : validateSpec (namedSpec "1pdb") = none := by decide +kernel
  refine ⟨hvalid, ?_, _, rfl, ?_⟩
  · intro h
    have hname := (@deletesExactly_iff asciiCasing asciiLexicon _ _ asciiCasing_keeps hvalid).mp h
    revert hname
    decide +kernel
  · intro h
    have hcond := ((setsExactly_iff rfl).mp h).2
    revert hcond
    decide +kernel

end Results

end ElCarro.Databases.Unquoted
