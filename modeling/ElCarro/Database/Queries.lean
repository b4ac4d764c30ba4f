import ElCarro.Database.Statements
import ElCarro.Lib.SqlLexer

/-! # The engine's reading of a query

The texts of queries are put together from names, passwords, paths and lists of privileges.
The engine reads each of them as what it was, whatever characters it has: a text that would
be read otherwise is not built.
-/

namespace ElCarro.Databases.Queries

open Users SqlLexer

section Source

variable (casing : Casing)

/-- `MustBeIdentifier`, which panics when there is a double quote. -/
def mustBeIdentifier (id : String) : Option String :=
  if isIdentifier id then some (identifier id) else none

def mustBeObjectName (id : String) : Option String := mustBeIdentifier (casing.toUpper id)

def mustBePrivilege (p : String) : Option String := if isPrivilege p then some p else none

def queryCreatePDB (pdbName adminUser adminUserPass dataFilesDir defaultTablespace
    defaultTablespaceDatafile fileConvertFrom fileConvertTo : String) : Option String := do
  let pdbName ← mustBeObjectName casing pdbName
  let adminUser ← mustBeObjectName casing adminUser
  let adminUserPass ← mustBeIdentifier adminUserPass
  let defaultTablespace ← mustBeObjectName casing defaultTablespace
  return "create pluggable database " ++ pdbName ++ " admin user " ++ adminUser ++
    " identified by " ++ adminUserPass ++ " create_file_dest='" ++ stringParam dataFilesDir ++
    "' default tablespace " ++ defaultTablespace ++ " datafile '" ++
    stringParam defaultTablespaceDatafile ++
    "' size 1G autoextend on storage unlimited file_name_convert=('" ++
    stringParam fileConvertFrom ++ "', '" ++ stringParam fileConvertTo ++ "')"

def queryCreateDir (dirName path : String) : Option String := do
  let dirName ← mustBeObjectName casing dirName
  return "create directory " ++ dirName ++ " as '" ++ stringParam path ++ "'"

def identifiedBy (cmd name pass : String) : Option String := do
  let name ← mustBeObjectName casing name
  let pass ← mustBeIdentifier pass
  return cmd ++ name ++ " identified by " ++ pass

def queryCreateUser : String → String → Option String := identifiedBy casing "create user "

def queryAlterUser : String → String → Option String := identifiedBy casing "alter user "

def querySetSessionContainer (pdbName : String) : Option String := do
  let pdbName ← mustBeObjectName casing pdbName
  return "alter session set container=" ++ pdbName

def privilegesFor (cmd preposition privileges grantee : String) : Option String := do
  let privileges ← mustBePrivilege privileges
  let grantee ← mustBeObjectName casing grantee
  return cmd ++ privileges ++ preposition ++ grantee

def queryGrantPrivileges : String → String → Option String := privilegesFor casing "grant " " to "

def queryRevokePrivileges : String → String → Option String :=
  privilegesFor casing "revoke " " from "

/-- The query that makes the text of a statement, where it is one of these. -/
def query : Statement → Option String
  | .setSessionContainer pdbName => querySetSessionContainer casing pdbName
  | .createPDB p =>
    queryCreatePDB casing p.pluggableDatabaseName pdbAdmin p.pluggableAdminPasswd p.dataFilesDir
      p.defaultTablespace p.defaultTablespaceDatafile p.fileConvertFrom p.fileConvertTo
  | .openPDB pdbName => do
    let pdbName ← mustBeObjectName casing pdbName
    return "alter pluggable database " ++ pdbName ++ " open read write"
  | .saveState pdbName => do
    let pdbName ← mustBeObjectName casing pdbName
    return "alter pluggable database " ++ pdbName ++ " save state"
  | .createDir dirName path => queryCreateDir casing dirName path
  | .createUser name pass => queryCreateUser casing name pass
  | .alterUser name pass => queryAlterUser casing name pass
  | .grantPrivileges privileges grantee => queryGrantPrivileges casing privileges grantee
  | .revokePrivileges privileges grantee => queryRevokePrivileges casing privileges grantee

end Source

section Reading

variable {a : Alphabet} {casing : Casing}

/-- The words of a template, with one blank between them. -/
def template (text : String) : List Token := (text.toList.splitOn ' ').map .word

def quotedToken (id : String) : Token := .quoted id.toList

def literalToken (s : String) : Token := .literal s.toList

/-- The tokens that a list of privileges is read as. -/
structure PrivilegeTokens (a : Alphabet) (privileges : String) (ts : List Token) : Prop where
  reads : a.tokens privileges.toList = some ts
  plain : ∀ t ∈ ts, t = .symbol ',' ∨ ∃ cs, t = .word cs

theorem toList_stringParam (s : String) : (stringParam s).toList = escape s.toList :=
  toList_replace_singleton s "''" '\''

theorem mustBeIdentifier_eq_some {id text : String} :
    mustBeIdentifier id = some text ↔ '"' ∉ id.toList ∧ identifier id = text := by
  rw [mustBeIdentifier, Option.ite_none_right_eq_some, Option.some_inj, isIdentifier,
    decide_eq_true_eq]

theorem tokens_identifier {id : String} {ys : List Char} (h : '"' ∉ id.toList) :
    a.tokens ((identifier id).toList ++ ys) = (a.tokens ys).map (quotedToken id :: ·) := by
  have hlist : (identifier id).toList ++ ys = '"' :: (id.toList ++ '"' :: ys) := by
    simp [identifier]
  rw [hlist, tokens_quoted h]
  rfl

theorem tokens_fixed {text : String} {ys : List Char} {ts : List Token}
    (hascii : isAscii text.toList = true)
    (h : Alphabet.basic.scan .between text.toList = (.between, ts)) :
    a.tokens (text.toList ++ ys) = (a.tokens ys).map (ts ++ ·) :=
  tokens_text hascii h

theorem scan_fixed {s : State} {text : String} {r : State × List Token}
    (hascii : isAscii text.toList = true) (h : Alphabet.basic.scan s text.toList = r) :
    a.scan s text.toList = r :=
  (scan_of_ascii hascii).trans h

theorem scan_identifier {id : String} (h : '"' ∉ id.toList) :
    a.scan .between (identifier id).toList = (.between, [quotedToken id]) := by
  have hopen : a.scan .between ['"'] = (.quoted [], []) := scan_of_ascii (by decide)
  have hlist : (identifier id).toList = ['"'] ++ (id.toList ++ ['"']) := by simp [identifier]
  rw [hlist]
  exact scan_append hopen (scan_quoted h)

theorem scan_stringParam (path : String) :
    a.scan (.literal []) (stringParam path).toList = (.literal path.toList, []) := by
  rw [toList_stringParam, scan_escape]
  rfl

/-- The text after a path closes the literal, and the rest of it is read from there. -/
theorem scan_after {path text : String} {s : State} {ts : List Token}
    (hascii : isAscii text.toList = true) (hquote : text.toList.head? = some '\'')
    (hnext : text.toList.tail ≠ [] ∧ text.toList.tail.head? ≠ some '\'')
    (h : Alphabet.basic.scan .between text.toList.tail = (s, ts)) :
    a.scan (.literal path.toList) text.toList = (s, literalToken path :: ts) := by
  obtain ⟨rest, htext⟩ := List.head?_eq_some_iff.mp hquote
  rw [htext, List.tail_cons] at hnext h
  rw [htext, isAscii_cons] at hascii
  have hclose : a.scan (.literal path.toList) ['\''] = (.closing path.toList, []) := rfl
  have hread : a.scan .between rest = (s, ts) := (scan_of_ascii hascii.2).trans h
  have hrest := scan_of_ends hnext.1 (.closing hnext.2 : Ends a _ [literalToken path] rest)
  rw [hread] at hrest
  rw [htext]
  exact scan_append hclose hrest

/-- A path at the end of a statement. -/
theorem tokens_lastPath {before path : String} {ts : List Token}
    (h : a.scan .between before.toList = (.literal [], ts)) :
    a.tokens (before ++ stringParam path ++ "'").toList = some (ts ++ [literalToken path]) := by
  have hclose : a.scan (.literal path.toList) "'".toList = (.closing path.toList, []) := rfl
  have hscan := scan_append h (scan_append (scan_stringParam path) hclose)
  rw [String.toList_append, String.toList_append, List.append_assoc, tokens_of_scan hscan rfl,
    List.append_nil, List.append_nil]
  rfl

theorem isWord_of_isAlpha {c : Char} (h : c.isAlpha = true) : a.isWord c = true := by
  have hascii : c.toNat < 128 := by
    have hval : c.toNat = c.val.toNat := rfl
    have hends : 'Z'.val.toNat = 90 ∧ 'z'.val.toNat = 122 := by decide
    have hletter : (decide ('A'.val ≤ c.val ∧ c.val ≤ 'Z'.val) ||
        (decide ('a'.val ≤ c.val) && decide (c.val ≤ 'z'.val))) = true := h
    simp only [Bool.or_eq_true, decide_eq_true_eq, UInt32.le_iff_toNat_le,
      Bool.and_eq_true] at hletter
    omega
  rw [Alphabet.isWord, a.ascii c hascii, h]
  rfl

/-- Only words and commas are read, and nothing but a word can be unfinished. -/
def Plain (r : State × List Token) : Prop :=
  (r.1 = .between ∨ ∃ ws, r.1 = .word ws) ∧ ∀ t ∈ r.2, t = .symbol ',' ∨ ∃ ws, t = .word ws

theorem plain_next {s : State} {c : Char} (hs : s = .between ∨ ∃ ws, s = .word ws)
    (h : (c.isAlpha || c = ' ' || c = ',' || c = '_') = true) : Plain (a.next s c) := by
  have hstart : a.isWord c = true ∨ a.isWord c = false ∧ Plain (a.start c) := by
    simp only [Bool.or_eq_true, decide_eq_true_eq] at h
    rcases h with ((h | rfl) | rfl) | rfl
    · exact .inl (isWord_of_isAlpha h)
    · exact .inr ⟨isWord_of_ascii (by decide), .inl rfl, by simp [Alphabet.start]⟩
    · have hcomma : a.isWord ',' = false := isWord_of_ascii (by decide)
      have hsign : a.start ',' = (.between, [.symbol ',']) := by
        rw [Alphabet.start, hcomma]
        rfl
      rw [hsign]
      exact .inr ⟨hcomma, .inl rfl, by simp⟩
    · exact .inl (isWord_of_ascii (by decide))
  rcases hs with rfl | ⟨ws, rfl⟩
  · rcases hstart with hword | ⟨-, hplain⟩
    · rw [Alphabet.next, start_of_isWord hword]
      exact ⟨.inr ⟨_, rfl⟩, by simp⟩
    · exact hplain
  · rcases hstart with hword | ⟨hword, hplain⟩
    · rw [Alphabet.next, if_pos hword]
      exact ⟨.inr ⟨_, rfl⟩, by simp⟩
    · rw [Alphabet.next, hword, if_neg Bool.false_ne_true, Alphabet.startAfter]
      refine ⟨hplain.1, ?_⟩
      rw [List.forall_mem_cons]
      exact ⟨.inr ⟨ws, rfl⟩, hplain.2⟩

theorem plain_scan {s : State} {cs : List Char} (hs : s = .between ∨ ∃ ws, s = .word ws)
    (h : ∀ c ∈ cs, (c.isAlpha || c = ' ' || c = ',' || c = '_') = true) :
    Plain (a.scan s cs) := by
  induction cs generalizing s with
  | nil => exact ⟨hs, by simp [Alphabet.scan]⟩
  | cons c cs ih =>
    rw [List.forall_mem_cons] at h
    have hnext := plain_next (a := a) hs h.1
    have hrest := ih hnext.1 h.2
    refine ⟨hrest.1, ?_⟩
    intro t ht
    rcases List.mem_append.mp ht with ht | ht
    · exact hnext.2 t ht
    · exact hrest.2 t ht

theorem tokens_privileges {privileges : String} {ys : List Char}
    (h : isPrivilege privileges = true) (hys : ys.head? = some ' ') :
    ∃ ts, PrivilegeTokens a privileges ts ∧
      a.tokens (privileges.toList ++ ys) = (a.tokens ys).map (ts ++ ·) := by
  have hcs : ∀ c ∈ privileges.toList, (c.isAlpha || c = ' ' || c = ',' || c = '_') = true := by
    rw [isPrivilege, decide_eq_true_eq, List.all_eq_true] at h
    exact h.2
  obtain ⟨hend, hplain⟩ := plain_scan (a := a) (.inl rfl) hcs
  obtain ⟨us, hends, hus⟩ : ∃ us, Ends a (a.scan .between privileges.toList).1 us ys ∧
      ∀ t ∈ us, t = .symbol ',' ∨ ∃ ws, t = .word ws := by
    rcases hend with hend | ⟨ws, hend⟩
    · rw [hend]
      exact ⟨[], .between, by simp⟩
    · rw [hend]
      refine ⟨[.word ws], .word ?_, by simp⟩
      rw [hys]
      rintro _ ⟨⟩
      exact isWord_of_ascii (by decide)
  refine ⟨_, ⟨tokens_of_scan rfl hends.finish, ?_⟩, tokens_append rfl hends⟩
  intro t ht
  rcases List.mem_append.mp ht with ht | ht
  · exact hplain t ht
  · exact hus t ht

theorem tokens_identifiedBy {cmd name pass text : String} {ts : List Token}
    (hcmd : ∀ ys, a.tokens (cmd.toList ++ ys) = (a.tokens ys).map (ts ++ ·))
    (h : identifiedBy casing cmd name pass = some text) :
    a.tokens text.toList = some (ts ++ quotedToken (casing.toUpper name) ::
      (template "identified by" ++ [quotedToken pass])) := by
  obtain ⟨_, hname, hrest⟩ := Option.bind_eq_some_iff.mp h
  obtain ⟨_, hpass, htext⟩ := Option.bind_eq_some_iff.mp hrest
  obtain ⟨hnameq, rfl⟩ := mustBeIdentifier_eq_some.mp hname
  obtain ⟨hpassq, rfl⟩ := mustBeIdentifier_eq_some.mp hpass
  obtain rfl := Option.some.inj htext
  have hby : ∀ ys, a.tokens (" identified by ".toList ++ ys) =
      (a.tokens ys).map (template "identified by" ++ ·) :=
    fun _ => tokens_fixed (by decide) (by decide)
  have hend := @tokens_identifier a pass [] hpassq
  rw [List.append_nil] at hend
  simp only [String.toList_append, List.append_assoc]
  rw [hcmd, tokens_identifier hnameq, hby, hend]
  rfl

theorem tokens_privilegesFor {cmd preposition privileges grantee text : String}
    {ts us : List Token}
    (hcmd : ∀ ys, a.tokens (cmd.toList ++ ys) = (a.tokens ys).map (ts ++ ·))
    (hprep : ∀ ys, a.tokens (preposition.toList ++ ys) = (a.tokens ys).map (us ++ ·))
    (hblank : preposition.toList.head? = some ' ')
    (h : privilegesFor casing cmd preposition privileges grantee = some text) :
    ∃ ps, PrivilegeTokens a privileges ps ∧
      a.tokens text.toList = some (ts ++ ps ++ us ++ [quotedToken (casing.toUpper grantee)]) := by
  obtain ⟨_, hprivs, hrest⟩ := Option.bind_eq_some_iff.mp h
  obtain ⟨_, hname, htext⟩ := Option.bind_eq_some_iff.mp hrest
  obtain ⟨hnameq, rfl⟩ := mustBeIdentifier_eq_some.mp hname
  obtain ⟨hpriv, rfl⟩ : isPrivilege privileges = true ∧ privileges = _ := by
    rwa [mustBePrivilege, Option.ite_none_right_eq_some, Option.some_inj] at hprivs
  obtain rfl := Option.some.inj htext
  have hhead : ∀ ys, (preposition.toList ++ ys).head? = some ' ' := by
    intro ys
    rw [List.head?_append, hblank, Option.some_or]
  have hend := @tokens_identifier a (casing.toUpper grantee) [] hnameq
  rw [List.append_nil] at hend
  obtain ⟨ps, hps, hread⟩ := tokens_privileges (a := a) hpriv
    (hhead (identifier (casing.toUpper grantee)).toList)
  refine ⟨ps, hps, ?_⟩
  simp only [String.toList_append, List.append_assoc]
  rw [hcmd, hread, hprep, hend]
  rfl

theorem tokens_queryCreateDir {dirName path text : String}
    (h : queryCreateDir casing dirName path = some text) :
    a.tokens text.toList = some (template "create directory" ++
      quotedToken (casing.toUpper dirName) :: (template "as" ++ [literalToken path])) := by
  obtain ⟨_, hname, htext⟩ := Option.bind_eq_some_iff.mp h
  obtain ⟨hnameq, rfl⟩ := mustBeIdentifier_eq_some.mp hname
  obtain rfl := Option.some.inj htext
  have hcmd : a.scan .between "create directory ".toList =
      (.between, template "create directory") :=
    scan_fixed (by decide +kernel) (by decide +kernel)
  have hopen : a.scan .between " as '".toList = (.literal [], template "as") :=
    scan_fixed (by decide +kernel) (by decide +kernel)
  have hbefore := scan_append hcmd (scan_append (scan_identifier hnameq) hopen)
  rw [← String.toList_append, ← String.toList_append, ← String.append_assoc] at hbefore
  exact tokens_lastPath hbefore

theorem tokens_querySetSessionContainer {pdbName text : String}
    (h : querySetSessionContainer casing pdbName = some text) :
    a.tokens text.toList = some (template "alter session set container" ++
      [.symbol '=', quotedToken (casing.toUpper pdbName)]) := by
  obtain ⟨_, hname, htext⟩ := Option.bind_eq_some_iff.mp h
  obtain ⟨hnameq, rfl⟩ := mustBeIdentifier_eq_some.mp hname
  obtain rfl := Option.some.inj htext
  have hcmd : ∀ ys, a.tokens ("alter session set container=".toList ++ ys) =
      (a.tokens ys).map (template "alter session set container" ++ [.symbol '='] ++ ·) :=
    fun _ => tokens_fixed (by decide) (by decide)
  have hend := @tokens_identifier a (casing.toUpper pdbName) [] hnameq
  rw [List.append_nil] at hend
  rw [String.toList_append, hcmd, hend]
  rfl

/-- What the query that creates a PDB is read as. -/
def createPDBTokens (pdbName adminUser adminUserPass dataFilesDir defaultTablespace
    defaultTablespaceDatafile fileConvertFrom fileConvertTo : String) : List Token :=
  template "create pluggable database" ++ quotedToken pdbName ::
    (template "admin user" ++ quotedToken adminUser ::
    (template "identified by" ++ quotedToken adminUserPass ::
    (template "create_file_dest" ++ .symbol '=' :: literalToken dataFilesDir ::
    (template "default tablespace" ++ quotedToken defaultTablespace ::
    (template "datafile" ++ literalToken defaultTablespaceDatafile ::
    (template "size 1G autoextend on storage unlimited file_name_convert" ++
      [.symbol '=', .symbol '(', literalToken fileConvertFrom, .symbol ',',
        literalToken fileConvertTo, .symbol ')']))))))

theorem tokens_queryCreatePDB {pdbName adminUser adminUserPass dataFilesDir defaultTablespace
    defaultTablespaceDatafile fileConvertFrom fileConvertTo text : String}
    (h : queryCreatePDB casing pdbName adminUser adminUserPass dataFilesDir defaultTablespace
      defaultTablespaceDatafile fileConvertFrom fileConvertTo = some text) :
    a.tokens text.toList = some (createPDBTokens (casing.toUpper pdbName)
      (casing.toUpper adminUser) adminUserPass dataFilesDir (casing.toUpper defaultTablespace)
      defaultTablespaceDatafile fileConvertFrom fileConvertTo) := by
  obtain ⟨_, hname, hrest⟩ := Option.bind_eq_some_iff.mp h
  obtain ⟨_, hadmin, hrest'⟩ := Option.bind_eq_some_iff.mp hrest
  obtain ⟨_, hpass, hrest''⟩ := Option.bind_eq_some_iff.mp hrest'
  obtain ⟨_, hspace, htext⟩ := Option.bind_eq_some_iff.mp hrest''
  obtain ⟨hnameq, rfl⟩ := mustBeIdentifier_eq_some.mp hname
  obtain ⟨hadminq, rfl⟩ := mustBeIdentifier_eq_some.mp hadmin
  obtain ⟨hpassq, rfl⟩ := mustBeIdentifier_eq_some.mp hpass
  obtain ⟨hspaceq, rfl⟩ := mustBeIdentifier_eq_some.mp hspace
  obtain rfl := Option.some.inj htext
  have hcmd : a.scan .between "create pluggable database ".toList =
      (.between, template "create pluggable database") :=
    scan_fixed (by decide +kernel) (by decide +kernel)
  have huser : a.scan .between " admin user ".toList = (.between, template "admin user") :=
    scan_fixed (by decide +kernel) (by decide +kernel)
  have hby : a.scan .between " identified by ".toList = (.between, template "identified by") :=
    scan_fixed (by decide +kernel) (by decide +kernel)
  have hdest : a.scan .between " create_file_dest='".toList =
      (.literal [], template "create_file_dest" ++ [.symbol '=']) :=
    scan_fixed (by decide +kernel) (by decide +kernel)
  have hdefault : a.scan (.literal dataFilesDir.toList) "' default tablespace ".toList =
      (.between, literalToken dataFilesDir :: template "default tablespace") :=
    scan_after (by decide +kernel) (by decide +kernel) (by decide +kernel) (by decide +kernel)
  have hfile : a.scan .between " datafile '".toList = (.literal [], template "datafile") :=
    scan_fixed (by decide +kernel) (by decide +kernel)
  have hsize : a.scan (.literal defaultTablespaceDatafile.toList)
      "' size 1G autoextend on storage unlimited file_name_convert=('".toList =
      (.literal [], literalToken defaultTablespaceDatafile ::
        (template "size 1G autoextend on storage unlimited file_name_convert" ++
          [.symbol '=', .symbol '('])) :=
    scan_after (by decide +kernel) (by decide +kernel) (by decide +kernel) (by decide +kernel)
  have hcomma : a.scan (.literal fileConvertFrom.toList) "', '".toList =
      (.literal [], [literalToken fileConvertFrom, .symbol ',']) :=
    scan_after (by decide +kernel) (by decide +kernel) (by decide +kernel) (by decide +kernel)
  have hclose : a.scan (.literal fileConvertTo.toList) "')".toList =
      (.between, [literalToken fileConvertTo, .symbol ')']) :=
    scan_after (by decide +kernel) (by decide +kernel) (by decide +kernel) (by decide +kernel)
  simp only [String.toList_append, List.append_assoc]
  have hscan := scan_append hcmd (scan_append (scan_identifier hnameq)
    (scan_append huser (scan_append (scan_identifier hadminq)
    (scan_append hby (scan_append (scan_identifier hpassq)
    (scan_append hdest (scan_append (scan_stringParam dataFilesDir)
    (scan_append hdefault (scan_append (scan_identifier hspaceq)
    (scan_append hfile (scan_append (scan_stringParam defaultTablespaceDatafile)
    (scan_append hsize (scan_append (scan_stringParam fileConvertFrom)
    (scan_append hcomma (scan_append (scan_stringParam fileConvertTo) hclose)))))))))))))))
  rw [tokens_of_scan hscan rfl]
  rfl

/-- Names, passwords and paths are read as one quoted token each, and privileges as words and
commas, whatever they are. -/
structure InjectionFree (a : Alphabet) (casing : Casing) : Prop where
  createPDB : ∀ pdbName adminUser adminUserPass dataFilesDir defaultTablespace
    defaultTablespaceDatafile fileConvertFrom fileConvertTo text,
    queryCreatePDB casing pdbName adminUser adminUserPass dataFilesDir defaultTablespace
      defaultTablespaceDatafile fileConvertFrom fileConvertTo = some text →
    a.tokens text.toList = some (createPDBTokens (casing.toUpper pdbName)
      (casing.toUpper adminUser) adminUserPass dataFilesDir (casing.toUpper defaultTablespace)
      defaultTablespaceDatafile fileConvertFrom fileConvertTo)
  createDir : ∀ dirName path text, queryCreateDir casing dirName path = some text →
    a.tokens text.toList = some (template "create directory" ++
      quotedToken (casing.toUpper dirName) :: (template "as" ++ [literalToken path]))
  createUser : ∀ name pass text, queryCreateUser casing name pass = some text →
    a.tokens text.toList = some (template "create user" ++ quotedToken (casing.toUpper name) ::
      (template "identified by" ++ [quotedToken pass]))
  alterUser : ∀ name pass text, queryAlterUser casing name pass = some text →
    a.tokens text.toList = some (template "alter user" ++ quotedToken (casing.toUpper name) ::
      (template "identified by" ++ [quotedToken pass]))
  setSessionContainer : ∀ pdbName text, querySetSessionContainer casing pdbName = some text →
    a.tokens text.toList = some (template "alter session set container" ++
      [.symbol '=', quotedToken (casing.toUpper pdbName)])
  grantPrivileges : ∀ privileges grantee text,
    queryGrantPrivileges casing privileges grantee = some text →
    ∃ ps, PrivilegeTokens a privileges ps ∧ a.tokens text.toList = some (template "grant" ++ ps ++
      template "to" ++ [quotedToken (casing.toUpper grantee)])
  revokePrivileges : ∀ privileges grantee text,
    queryRevokePrivileges casing privileges grantee = some text →
    ∃ ps, PrivilegeTokens a privileges ps ∧ a.tokens text.toList = some (template "revoke" ++ ps ++
      template "from" ++ [quotedToken (casing.toUpper grantee)])

theorem queries_injectionFree (a : Alphabet) (casing : Casing) : InjectionFree a casing where
  createPDB _ _ _ _ _ _ _ _ _ h := tokens_queryCreatePDB h
  createDir _ _ _ h := tokens_queryCreateDir h
  createUser _ _ _ h := tokens_identifiedBy (fun _ => tokens_fixed (by decide) (by decide)) h
  alterUser _ _ _ h := tokens_identifiedBy (fun _ => tokens_fixed (by decide) (by decide)) h
  setSessionContainer _ _ h := tokens_querySetSessionContainer h
  grantPrivileges _ _ _ h :=
    tokens_privilegesFor (fun _ => tokens_fixed (by decide) (by decide))
      (fun _ => tokens_fixed (by decide) (by decide)) (by decide) h
  revokePrivileges _ _ _ h :=
    tokens_privilegesFor (fun _ => tokens_fixed (by decide) (by decide))
      (fun _ => tokens_fixed (by decide) (by decide)) (by decide) h

theorem bind_mustBeIdentifier {id : String} {f : String → Option String} :
    (mustBeIdentifier id >>= f) = if isIdentifier id then f (identifier id) else none := by
  rw [mustBeIdentifier]
  split <;> rfl

theorem bind_mustBeObjectName {id : String} {f : String → Option String} :
    (mustBeObjectName casing id >>= f) =
      if isIdentifier (casing.toUpper id) then f (objectName casing id) else none :=
  bind_mustBeIdentifier

theorem bind_mustBePrivilege {p : String} {f : String → Option String} :
    (mustBePrivilege p >>= f) = if isPrivilege p then f p else none := by
  rw [mustBePrivilege]
  split <;> rfl

theorem ite_ite_eq {b c : Bool} {o : Option String} :
    (if b then if c then o else none else none) = if b && c then o else none := by
  cases b <;> rfl

theorem identifiedBy_eq {cmd name pass : String} : identifiedBy casing cmd name pass =
    if isIdentifier (casing.toUpper name) && isIdentifier pass then
      some (cmd ++ objectName casing name ++ " identified by " ++ identifier pass) else none := by
  rw [identifiedBy, bind_mustBeObjectName, bind_mustBeIdentifier, ite_ite_eq]
  rfl

theorem privilegesFor_eq {cmd preposition privileges grantee : String} :
    privilegesFor casing cmd preposition privileges grantee =
      if isPrivilege privileges && isIdentifier (casing.toUpper grantee) then
        some (cmd ++ privileges ++ preposition ++ objectName casing grantee) else none := by
  rw [privilegesFor, bind_mustBePrivilege, bind_mustBeObjectName, ite_ite_eq]
  rfl

/-- The text of a statement is the one that its query builds. -/
theorem query_eq (casing : Casing) (st : Statement) :
    query casing st = if st.valid casing then some (st.text casing) else none := by
  cases st with
  | setSessionContainer pdbName => exact bind_mustBeObjectName
  | createPDB p =>
    unfold query queryCreatePDB Statement.valid Statement.text Statement.beforePassword
      Statement.afterPassword
    simp only [bind_mustBeObjectName, bind_mustBeIdentifier, ite_ite_eq, Bool.and_assoc,
      String.append_assoc, pure]
  | openPDB pdbName => exact bind_mustBeObjectName
  | saveState pdbName => exact bind_mustBeObjectName
  | createDir dirName path => exact bind_mustBeObjectName
  | createUser name pass => exact identifiedBy_eq
  | alterUser name pass => exact identifiedBy_eq
  | grantPrivileges privileges grantee => exact privilegesFor_eq
  | revokePrivileges privileges grantee => exact privilegesFor_eq

end Reading

end ElCarro.Databases.Queries
