import ElCarro.Lib.QuotedNames
import ElCarro.Lib.Scanner

/-! # Tablespaces before an import

Before an import the daemon looks for references to tablespaces in the SQL file that the
metadata import has written, and creates those that the PDB does not have. It takes one
reference from a line, none from an overlong line and those behind it, and creates none
for an undo tablespace.
-/

namespace ElCarro.DataPump.Tablespaces

open QuotedNames Scanner

section Pattern

/-- The forms of a reference: `kind` of the pattern, or the grant of a quota. -/
inductive Form where
  | default | create | undo | temporary | quota
  deriving DecidableEq, Repr

def Form.opening : Form → String
  | .default => "DEFAULT TABLESPACE \""
  | .create => "CREATE TABLESPACE \""
  | .undo => "UNDO TABLESPACE \""
  | .temporary => "TEMPORARY TABLESPACE \""
  | .quota => "QUOTA UNLIMITED ON \""

def tsRegexp : Table Form where
  openings := [Form.default, .create, .undo, .temporary, .quota].map fun form =>
    (form, form.opening.toList)
  nonempty := by decide +kernel
  newline_notMem := by decide +kernel
  return_notMem := by decide +kernel

structure Reference where
  form : Form
  name : String
  deriving DecidableEq, Repr

def reference (m : Match Form) : Reference := ⟨m.form, String.ofList m.name⟩

/-- All references of a text. -/
def references (text : String) : List Reference :=
  (findAll tsRegexp 0 text.toList).map reference

/-- `FindStringSubmatch`. -/
def findStringSubmatch (line : String) : Option Reference :=
  (find tsRegexp line.toList).map reference

/-- The one match of a line is its first reference. -/
theorem findStringSubmatch_eq (line : String) :
    findStringSubmatch line = (references line).head? := by
  rw [findStringSubmatch, find_eq_head?, references, List.head?_map]

theorem findAll_splitLines {current cs : List Char} :
    (splitLines current cs).flatMap (findAll tsRegexp 0) =
      findAll tsRegexp 0 (current.reverse ++ cs) := by
  induction cs generalizing current with
  | nil =>
    rw [splitLines, List.append_nil]
    split
    · rename_i h
      rw [h]
      rfl
    · exact List.flatMap_singleton _ _
  | cons c cs ih =>
    rw [splitLines]
    split
    · rename_i h
      rw [h, List.flatMap_cons, ih, findAll_newline]
      rfl
    · rw [ih, List.reverse_cons, List.append_assoc]
      rfl

theorem findAll_dropCR (line : List Char) :
    findAll tsRegexp 0 (dropCR line) = findAll tsRegexp 0 line := by
  rw [dropCR]
  split
  · rename_i h
    conv_rhs => rw [← List.dropLast_append_getLast? '\r' h]
    exact findAll_return.symm
  · rfl

/-- The references of a line that is read are references of the text. -/
theorem references_lines {text line : String} (hline : line ∈ lines text) :
    references line ⊆ references text := by
  obtain ⟨raw, hraw, rfl⟩ := List.mem_map.mp hline
  have hsplit := (List.takeWhile_prefix _).subset hraw
  rw [references, references, String.toList_ofList, findAll_dropCR]
  refine List.map_subset _ ?_
  rw [show text.toList = ([] : List Char).reverse ++ text.toList from rfl, ← findAll_splitLines]
  exact fun m hm => List.mem_flatMap.mpr ⟨raw, hsplit, hm⟩

end Pattern

section Creation

/-- The contents of the tablespaces that are created. -/
inductive Kind where
  | permanent | temporary
  deriving DecidableEq, Repr

def Kind.contents : Kind → String
  | .permanent => "PERMANENT"
  | .temporary => "TEMPORARY"

/-- What is created for a form; the undo form has no branch of its own. -/
def Form.kind : Form → Option Kind
  | .default | .create | .quota => some .permanent
  | .temporary => some .temporary
  | .undo => none

/-- The two sets of names, `ts` and `tsTemp`. -/
structure Gathered where
  ts : List String
  tsTemp : List String
  deriving DecidableEq, Repr

def Gathered.of (g : Gathered) : Kind → List String
  | .permanent => g.ts
  | .temporary => g.tsTemp

def gatherLine (g : Gathered) (line : String) : Gathered :=
  match findStringSubmatch line with
  | none => g
  | some ref => match ref.form with
    | .default | .create => { g with ts := g.ts.insert ref.name }
    -- from the grant match.
    | .quota => { g with ts := g.ts.insert ref.name }
    | .temporary => { g with tsTemp := g.tsTemp.insert ref.name }
    | .undo => g

def gather (text : String) : Gathered := (lines text).foldl gatherLine ⟨[], []⟩

/-- A row of `dba_tablespaces`. -/
structure Tablespace where
  contents : String
  name : String
  deriving DecidableEq, Repr

def dropExisting (g : Gathered) (row : Tablespace) : Gathered where
  ts := if row.contents = "PERMANENT" then g.ts.filter (· ≠ row.name) else g.ts
  tsTemp := if row.contents = "TEMPORARY" then g.tsTemp.filter (· ≠ row.name) else g.tsTemp

/-- The SQL file, the tablespaces of the PDB, and what goes wrong on the way. -/
structure Env where
  text : String
  opened : Bool
  tablespaces : List Tablespace
  queryFails : Bool
  /-- The rows whose message cannot be parsed. -/
  garbled : Tablespace → Bool

inductive Create where
  | bigfile (name : String)
  | temporary (name : String)
  deriving DecidableEq, Repr

def Create.name : Create → String
  | .bigfile name | .temporary name => name

/-- The statement that is sent. -/
def Create.text : Create → String
  | .bigfile t => "create bigfile tablespace \"" ++ t ++ "\""
  | .temporary t => "create temporary tablespace \"" ++ t ++ "\" size 128M autoextend on"

/-- The first row that cannot be parsed ends the function. -/
def dropAll (env : Env) (g : Gathered) : Option Gathered :=
  env.tablespaces.foldlM (fun g row => if env.garbled row then none else some (dropExisting g row))
    g

/-- The statements that `createTablespacesFromSqlfile` sends; their errors are only logged. -/
def createTablespacesFromSqlfile (env : Env) : List Create :=
  if ¬ env.opened then []
  else
    let g := gather env.text
    if env.queryFails then []
    else match dropAll env g with
      | none => []
      | some g => g.ts.map .bigfile ++ g.tsTemp.map .temporary

end Creation

section Membership

variable {g : Gathered} {k : Kind} {t : String}

theorem mem_gatherLine_iff {line : String} : t ∈ (gatherLine g line).of k ↔
    t ∈ g.of k ∨ ∃ ref, findStringSubmatch line = some ref ∧ ref.form.kind = some k ∧
      ref.name = t := by
  rw [gatherLine]
  cases findStringSubmatch line with
  | none => simp
  | some ref =>
    obtain ⟨form, name⟩ := ref
    cases form <;> cases k <;>
      simp [Gathered.of, Form.kind, List.mem_insert_iff, or_comm, eq_comm]

theorem mem_gather_iff {text : String} : t ∈ (gather text).of k ↔
    ∃ line ∈ lines text, ∃ ref, findStringSubmatch line = some ref ∧ ref.form.kind = some k ∧
      ref.name = t := by
  have hfold : ∀ (ls : List String) (g : Gathered), t ∈ (ls.foldl gatherLine g).of k ↔
      t ∈ g.of k ∨ ∃ line ∈ ls, ∃ ref, findStringSubmatch line = some ref ∧
        ref.form.kind = some k ∧ ref.name = t := by
    intro ls
    induction ls with
    | nil => simp
    | cons line ls ih =>
      intro g
      rw [List.foldl_cons, ih, mem_gatherLine_iff, List.exists_mem_cons_iff, or_assoc]
  rw [gather, hfold]
  cases k <;> simp [Gathered.of]

theorem mem_dropExisting_iff {row : Tablespace} : t ∈ (dropExisting g row).of k ↔
    t ∈ g.of k ∧ row ≠ ⟨k.contents, t⟩ := by
  obtain ⟨contents, name⟩ := row
  have hname : name = t ↔ t = name := eq_comm
  cases k with
  | permanent =>
    by_cases hcontents : contents = "PERMANENT" <;>
      simp [dropExisting, Gathered.of, Kind.contents, hcontents, hname]
  | temporary =>
    by_cases hcontents : contents = "TEMPORARY" <;>
      simp [dropExisting, Gathered.of, Kind.contents, hcontents, hname]

theorem mem_foldl_dropExisting_iff {rows : List Tablespace} :
    t ∈ (rows.foldl dropExisting g).of k ↔ t ∈ g.of k ∧ ⟨k.contents, t⟩ ∉ rows := by
  induction rows generalizing g with
  | nil => simp
  | cons row rows ih =>
    rw [List.foldl_cons, ih, mem_dropExisting_iff, List.mem_cons, not_or, and_assoc, ne_comm]

/-- The PDB can be asked for its tablespaces. -/
def Env.answers (env : Env) : Bool :=
  env.opened && !env.queryFails && env.tablespaces.all (!env.garbled ·)

variable {env : Env}

theorem dropAll_eq : dropAll env g =
    if env.tablespaces.all (!env.garbled ·) then some (env.tablespaces.foldl dropExisting g)
    else none := by
  rw [dropAll]
  generalize env.tablespaces = rows
  induction rows generalizing g with
  | nil => rfl
  | cons row rows ih =>
    rw [List.foldlM_cons, List.all_cons]
    cases hrow : env.garbled row with
    | true => simp
    | false => simpa [hrow] using ih

def Gathered.creates (g : Gathered) : List Create :=
  g.ts.map .bigfile ++ g.tsTemp.map .temporary

theorem createTablespacesFromSqlfile_eq : createTablespacesFromSqlfile env =
    if env.answers then (env.tablespaces.foldl dropExisting (gather env.text)).creates
    else [] := by
  rw [createTablespacesFromSqlfile, Env.answers]
  cases env.opened with
  | false => simp
  | true =>
    cases env.queryFails with
    | true => simp
    | false =>
      by_cases hrows : env.tablespaces.all (!env.garbled ·) = true <;>
        simp [dropAll_eq, hrows, Gathered.creates]

theorem mem_creates_iff : t ∈ g.creates.map Create.name ↔ ∃ k, t ∈ g.of k := by
  simp only [Gathered.creates, List.map_append, List.map_map, Function.comp_def, Create.name,
    List.map_id', List.mem_append]
  constructor
  · rintro (h | h)
    · exact ⟨.permanent, h⟩
    · exact ⟨.temporary, h⟩
  · rintro ⟨k, h⟩
    cases k with
    | permanent => exact Or.inl h
    | temporary => exact Or.inr h

/-- A tablespace is created for the first reference of a line that is read, unless there is
one of that kind. -/
theorem mem_created_iff : t ∈ (createTablespacesFromSqlfile env).map Create.name ↔
    env.answers = true ∧ ∃ line ∈ lines env.text, ∃ ref, (references line).head? = some ref ∧
      ref.name = t ∧ ∃ k, ref.form.kind = some k ∧ ⟨k.contents, t⟩ ∉ env.tablespaces := by
  rw [createTablespacesFromSqlfile_eq]
  split
  · rename_i hanswers
    simp only [mem_creates_iff, mem_foldl_dropExisting_iff, mem_gather_iff,
      findStringSubmatch_eq, hanswers, true_and]
    constructor
    · rintro ⟨k, ⟨line, hline, ref, hfirst, hkind, hname⟩, hrow⟩
      exact ⟨line, hline, ref, hfirst, hname, k, hkind, hrow⟩
    · rintro ⟨line, hline, ref, hfirst, hname, k, hkind, hrow⟩
      exact ⟨k, ⟨line, hline, ref, hfirst, hkind, hname⟩, hrow⟩
  · rename_i hanswers
    simp [hanswers]

end Membership

section Completeness

variable (env : Env)

def Env.names : List String := env.tablespaces.map Tablespace.name

/-- Exactly the tablespaces are created that the file refers to and the PDB does not have. -/
def CreatesMissing : Prop :=
  ∀ t, t ∈ (createTablespacesFromSqlfile env).map Create.name ↔
    t ∈ (references env.text).map Reference.name ∧ t ∉ env.names

/-- The line is read, and the reference is its first and one that something is created for. -/
structure TakenFrom (line : String) (ref : Reference) (k : Kind) : Prop where
  mem : line ∈ lines env.text
  first : (references line).head? = some ref
  kind : ref.form.kind = some k

/-- The tablespaces that are missing are all created, and no others, exactly when each of
them is taken from some line and the PDB answers, and what is taken and not missing is of
the kind that it would be created with. -/
theorem createsMissing_iff : CreatesMissing env ↔
    (∀ ref ∈ references env.text, ref.name ∉ env.names →
      env.answers = true ∧ ∃ line first k, TakenFrom env line first k ∧ first.name = ref.name) ∧
    (env.answers = true → ∀ line ref k, TakenFrom env line ref k → ref.name ∈ env.names →
      ⟨k.contents, ref.name⟩ ∈ env.tablespaces) := by
  have hrow : ∀ {k : Kind} {t : String}, t ∉ env.names →
      (⟨k.contents, t⟩ : Tablespace) ∉ env.tablespaces := by
    intro k t ht hmem
    exact ht (List.mem_map_of_mem (f := Tablespace.name) hmem)
  constructor
  · intro h
    constructor
    · intro ref href hmissing
      obtain ⟨hanswers, line, hline, first, hfirst, hname, k, hkind, -⟩ := mem_created_iff.mp
        ((h ref.name).mpr ⟨List.mem_map_of_mem href, hmissing⟩)
      exact ⟨hanswers, line, first, k, ⟨hline, hfirst, hkind⟩, hname⟩
    · intro hanswers line ref k htaken hexists
      by_contra hkind
      have hcreated := mem_created_iff.mpr ⟨hanswers, line, htaken.mem, ref, htaken.first, rfl,
        k, htaken.kind, hkind⟩
      exact ((h ref.name).mp hcreated).2 hexists
  · rintro ⟨hmissing, hexisting⟩ t
    rw [mem_created_iff]
    constructor
    · rintro ⟨hanswers, line, hline, ref, hfirst, rfl, k, hkind, hnone⟩
      have href := references_lines hline (List.mem_of_mem_head? hfirst)
      exact ⟨List.mem_map_of_mem href,
        fun hexists => hnone (hexisting hanswers line ref k ⟨hline, hfirst, hkind⟩ hexists)⟩
    · rintro ⟨href, hnot⟩
      obtain ⟨ref, hmem, rfl⟩ := List.mem_map.mp href
      obtain ⟨hanswers, line, first, k, htaken, hname⟩ := hmissing ref hmem hnot
      exact ⟨hanswers, line, htaken.mem, first, htaken.first, hname, k, htaken.kind,
        hrow hnot⟩

/-- A user whose two tablespaces are named in one line. -/
theorem second_reference_not_created :
    ¬ CreatesMissing ⟨"DEFAULT TABLESPACE \"USERS\" TEMPORARY TABLESPACE \"TEMP\"\n", true,
      [], false, fun _ => false⟩ := by
  intro h
  have htemp := (h "TEMP").mpr (by decide +kernel)
  exact absurd htemp (by decide +kernel)

end Completeness

end ElCarro.DataPump.Tablespaces
