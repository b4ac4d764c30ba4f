import Mathlib.Order.Bounds.Basic
import ElCarro.Backup.Reconcile
import ElCarro.Lib.Scanner
import ElCarro.Lib.Strconv

/-! # The SCN of a physical backup

`PhysicalBackupMetadata` reads the highest `Next SCN` from a listing of the archived logs
in the backup. It finds the head of a table two lines above a row, which is so for the
first row of the table only.
-/

namespace ElCarro.Backups.BackupScn

open GoTime Scanner Strconv

section Code

structure Response where
  backupScn : String
  backupIncarnation : String
  backupTimestamp : Time
  deriving DecidableEq, Repr

/-- What the calls of `PhysicalBackupMetadata` come back with. -/
structure Env where
  newClient : Except String Unit
  runRMAN : String → Except String (List String)
  /-- The single result of a query. -/
  query : String → Except String String
  /-- `time.Parse` with the layout RFC3339. -/
  parseTime : String → Except String Time
  fetchDatabaseIncarnation : Except String String
  /-- What the error of `strconv.ParseInt` says. -/
  parseIntErr : String → String

def listArchiveLogBackupCmd (backupTag : String) : String :=
  "list backup of archivelog all tag '" ++ backupTag ++ "';"

def scnToTimestampSQL (scn : String) : String :=
  "select to_char(scn_to_timestamp(" ++ scn ++
    ") at time zone 'UTC', 'YYYY-MM-DD\"T\"HH24:MI:SS\"Z\"') as backuptime from dual"

/-- The prefix of the errors. -/
def errPrefix : String := "config_agent_helpers/PhysicalBackupMetadata: "

/-- The loop over the lines, with the last two of the three lines in the buffer. -/
def scanSCN (parseIntErr : String → String) (line1 line2 : String) (maxSCN : Int) :
    List String → Except String Int
  | [] => .ok maxSCN
  | line :: rest =>
    if Contains line1 "Next SCN" then
      match fields line with
      | [_, _, lowSCN, _, nextSCN, _] =>
        match parseInt nextSCN with
        | none => .error (errPrefix ++ "failed to parse 'Next SCN' " ++ lowSCN ++ ": " ++
            parseIntErr nextSCN)
        | some currentSCN => scanSCN parseIntErr line2 line (max maxSCN currentSCN) rest
      | _ => .error (errPrefix ++ "unexpected number of fields: " ++ line)
    else scanSCN parseIntErr line2 line maxSCN rest

/-- `PhysicalBackupMetadata`; the outer `none` is an output without an element. -/
def physicalBackupMetadata (env : Env) (backupTag : String) :
    Option (Except String (Option Response)) :=
  match env.newClient with
  | .error err => some (.error (errPrefix ++ "failed to create database daemon client: " ++ err))
  | .ok () =>
    match env.runRMAN (listArchiveLogBackupCmd backupTag) with
    | .error err => some (.error (errPrefix ++ "failed to list backup of archivelog: " ++ err))
    | .ok [] => none
    | .ok (output :: _) =>
      match scanSCN env.parseIntErr "" "" (-1) (lines output) with
      | .error err => some (.error err)
      | .ok maxSCN =>
        if maxSCN < 0 then some (.error (errPrefix ++ "failed to find backup scn"))
        else
          match env.query (scnToTimestampSQL (toString maxSCN)) with
          | .error err => some (.error (errPrefix ++ "failed to query backup time: " ++ err))
          | .ok backupTimeResp =>
            if backupTimeResp = "" then some (.ok none)
            else
              match env.parseTime backupTimeResp with
              | .error err => some (.error (errPrefix ++ "failed to parse backup time: " ++ err))
              | .ok backupTime =>
                match env.fetchDatabaseIncarnation with
                | .error err =>
                  some (.error (errPrefix ++ "failed to query database incarnation: " ++ err))
                | .ok incarnation => some (.ok (some ⟨toString maxSCN, incarnation, backupTime⟩))

end Code

section Listing

/-- A line that is not the head of a table of archived logs. -/
structure IsPlain (line : String) : Prop extends IsLine line where
  plain : ¬ Contains line "Next SCN"

instance (line : String) : Decidable (IsPlain line) :=
  decidable_of_iff (IsLine line ∧ ¬ Contains line "Next SCN")
    ⟨fun h => ⟨h.1, h.2⟩, fun h => ⟨h.toIsLine, h.plain⟩⟩

/-- A row of a table: thread, sequence, low SCN and time, next SCN and time. -/
structure Row where
  line : String
  nextSCN : Int
  isPlain : IsPlain line
  row : ∃ thrd seq lowSCN lowTime next nextTime,
    fields line = [thrd, seq, lowSCN, lowTime, next, nextTime] ∧ parseInt next = some nextSCN
  nonneg : 0 ≤ nextSCN

/-- The table of archived logs of a backup set, and the lines up to the next one. -/
structure Table where
  head : String
  rule : String
  first : Row
  others : List Row
  after : List String
  head_line : IsLine head
  head_names : Contains head "Next SCN"
  rule_plain : IsPlain rule
  after_plain : ∀ line ∈ after, IsPlain line

def Table.rows (table : Table) : List Row := table.first :: table.others

def Table.lines (table : Table) : List String :=
  table.head :: table.rule :: (table.rows.map Row.line ++ table.after)

/-- What RMAN prints of the archived logs in the backup sets with a tag. -/
structure Listing where
  before : List String
  tables : List Table
  before_plain : ∀ line ∈ before, IsPlain line

def Listing.lines (listing : Listing) : List String :=
  listing.before ++ listing.tables.flatMap Table.lines

def Listing.text (listing : Listing) : String := unlines listing.lines

/-- The `Next SCN` of all rows. -/
def Listing.scns (listing : Listing) : Set Int :=
  {scn | ∃ table ∈ listing.tables, ∃ row ∈ table.rows, row.nextSCN = scn}

/-- The `Next SCN` of the rows right below the heads. -/
def Listing.firstSCNs (listing : Listing) : List Int :=
  listing.tables.map fun table => table.first.nextSCN

end Listing

section Scan

variable {parseIntErr : String → String} {line1 line2 : String} {maxSCN : Int}

/-- Plain lines are passed by. -/
theorem scanSCN_plain {ls : List String} (rest : List String)
    (h1 : ¬ Contains line1 "Next SCN") (h2 : ¬ Contains line2 "Next SCN")
    (hls : ∀ line ∈ ls, ¬ Contains line "Next SCN") :
    ∃ line1' line2', ¬ Contains line1' "Next SCN" ∧ ¬ Contains line2' "Next SCN" ∧
      scanSCN parseIntErr line1 line2 maxSCN (ls ++ rest) =
        scanSCN parseIntErr line1' line2' maxSCN rest := by
  induction ls generalizing line1 line2 with
  | nil => exact ⟨line1, line2, h1, h2, rfl⟩
  | cons line ls ih =>
    rw [List.forall_mem_cons] at hls
    rw [List.cons_append, scanSCN, if_neg h1]
    exact ih h2 hls.1 hls.2

/-- Of a table, the first row counts. -/
theorem scanSCN_table (table : Table) (rest : List String)
    (h1 : ¬ Contains line1 "Next SCN") (h2 : ¬ Contains line2 "Next SCN") :
    ∃ line1' line2', ¬ Contains line1' "Next SCN" ∧ ¬ Contains line2' "Next SCN" ∧
      scanSCN parseIntErr line1 line2 maxSCN (table.lines ++ rest) =
        scanSCN parseIntErr line1' line2' (max maxSCN table.first.nextSCN) rest := by
  have hfirst : scanSCN parseIntErr line1 line2 maxSCN (table.lines ++ rest) =
      scanSCN parseIntErr table.rule table.first.line (max maxSCN table.first.nextSCN)
        (table.others.map Row.line ++ table.after ++ rest) := by
    obtain ⟨_, _, _, _, _, _, hfields, hparse⟩ := table.first.row
    simp only [Table.lines, Table.rows, List.map_cons, List.cons_append, scanSCN, h1, h2,
      if_false, table.head_names, if_true, hfields, hparse]
  rw [hfirst]
  refine scanSCN_plain rest table.rule_plain.plain table.first.isPlain.plain ?_
  intro line hline
  rcases List.mem_append.mp hline with hline | hline
  · obtain ⟨row, -, rfl⟩ := List.mem_map.mp hline
    exact row.isPlain.plain
  · exact (table.after_plain line hline).plain

theorem scanSCN_tables {tables : List Table} (h1 : ¬ Contains line1 "Next SCN")
    (h2 : ¬ Contains line2 "Next SCN") :
    scanSCN parseIntErr line1 line2 maxSCN (tables.flatMap Table.lines) =
      .ok ((tables.map fun table => table.first.nextSCN).foldl max maxSCN) := by
  induction tables generalizing line1 line2 maxSCN with
  | nil => rfl
  | cons table tables ih =>
    obtain ⟨_, _, h1', h2', hscan⟩ := scanSCN_table table (tables.flatMap Table.lines) h1 h2
    rw [List.flatMap_cons, hscan, ih h1' h2']
    rfl

theorem not_contains_empty : ¬ Contains "" "Next SCN" := by decide

theorem listing_lines_isLine (listing : Listing) : ∀ line ∈ listing.lines, IsLine line := by
  intro line hline
  rcases List.mem_append.mp hline with hline | hline
  · exact (listing.before_plain line hline).toIsLine
  · obtain ⟨table, -, hline⟩ := List.mem_flatMap.mp hline
    simp only [Table.lines, List.mem_cons, List.mem_append, List.mem_map] at hline
    rcases hline with rfl | rfl | ⟨row, -, rfl⟩ | hline
    · exact table.head_line
    · exact table.rule_plain.toIsLine
    · exact row.isPlain.toIsLine
    · exact (table.after_plain line hline).toIsLine

/-- What the loop makes of a listing. -/
theorem scanSCN_listing (listing : Listing) :
    scanSCN parseIntErr "" "" (-1) (lines listing.text) =
      .ok (listing.firstSCNs.foldl max (-1)) := by
  rw [Listing.text, lines_unlines (listing_lines_isLine listing), Listing.lines]
  obtain ⟨_, _, h1, h2, hscan⟩ := scanSCN_plain (listing.tables.flatMap Table.lines)
    not_contains_empty not_contains_empty fun line hline => (listing.before_plain line hline).plain
  rw [hscan, scanSCN_tables h1 h2, Listing.firstSCNs]

/-- The highest of some numbers, from a first one on. -/
theorem foldl_max_spec (l : List Int) (m : Int) :
    (∀ n ∈ m :: l, n ≤ l.foldl max m) ∧ l.foldl max m ∈ m :: l := by
  induction l generalizing m with
  | nil => simp
  | cons n l ih =>
    obtain ⟨hle, hmem⟩ := ih (max m n)
    rw [List.forall_mem_cons] at hle
    constructor
    · rintro k (_ | ⟨_, _ | ⟨_, hk⟩⟩)
      · exact (le_max_left m n).trans hle.1
      · exact (le_max_right m n).trans hle.1
      · exact hle.2 k hk
    · rw [List.foldl_cons]
      rcases List.mem_cons.mp hmem with heq | hmem
      · rw [heq]
        rcases max_choice m n with h | h <;> simp [h]
      · exact List.mem_cons_of_mem _ (List.mem_cons_of_mem _ hmem)

end Scan

section Highest

variable {listing : Listing}

/-- The SCN of every response is the highest of all rows. -/
def ReportsHighest (listing : Listing) : Prop :=
  ∀ env backupTag r, env.runRMAN (listArchiveLogBackupCmd backupTag) = .ok [listing.text] →
    physicalBackupMetadata env backupTag = some (.ok (some r)) →
    ∃ scn, IsGreatest listing.scns scn ∧ r.backupScn = toString scn

/-- No row is higher than all the first rows of the tables. -/
def FirstRowsHighest (listing : Listing) : Prop :=
  ∀ scn ∈ listing.scns, ∃ first ∈ listing.firstSCNs, scn ≤ first

theorem firstSCNs_subset {n : Int} (h : n ∈ listing.firstSCNs) : n ∈ listing.scns := by
  obtain ⟨table, htable, rfl⟩ := List.mem_map.mp h
  exact ⟨table, htable, table.first, List.mem_cons_self, rfl⟩

theorem scns_nonneg {n : Int} (h : n ∈ listing.scns) : 0 ≤ n := by
  obtain ⟨table, -, row, -, rfl⟩ := h
  exact row.nonneg

/-- A listing with a table has its highest first row above the start of the search. -/
theorem foldl_firstSCNs_mem (h : 0 ≤ listing.firstSCNs.foldl max (-1)) :
    listing.firstSCNs.foldl max (-1) ∈ listing.firstSCNs := by
  rcases List.mem_cons.mp (foldl_max_spec listing.firstSCNs (-1)).2 with heq | hmem
  · rw [heq] at h
    omega
  · exact hmem

/-- The SCN of a response is the highest of the first rows. -/
theorem backupScn_eq {env : Env} {backupTag : String} {r : Response}
    (hout : env.runRMAN (listArchiveLogBackupCmd backupTag) = .ok [listing.text])
    (h : physicalBackupMetadata env backupTag = some (.ok (some r))) :
    0 ≤ listing.firstSCNs.foldl max (-1) ∧
      r.backupScn = toString (listing.firstSCNs.foldl max (-1)) := by
  simp only [physicalBackupMetadata, hout, scanSCN_listing] at h
  split at h
  · cases h
  · split at h
    · cases h
    · next hpos =>
      split at h
      · cases h
      · split at h
        · cases h
        · split at h
          · cases h
          · split at h
            · cases h
            · cases h
              exact ⟨by omega, rfl⟩

/-- Calls that succeed, for a listing. -/
def answering (listing : Listing) : Env where
  newClient := .ok ()
  runRMAN _ := .ok [listing.text]
  query _ := .ok "2022-01-01T00:00:00Z"
  parseTime _ := .ok (date 2022 1 1)
  fetchDatabaseIncarnation := .ok "1"
  parseIntErr _ := ""

theorem physicalBackupMetadata_answering (backupTag : String)
    (h : 0 ≤ listing.firstSCNs.foldl max (-1)) :
    physicalBackupMetadata (answering listing) backupTag =
      some (.ok (some ⟨toString (listing.firstSCNs.foldl max (-1)), "1", date 2022 1 1⟩)) := by
  simp [physicalBackupMetadata, answering, scanSCN_listing, not_lt.mpr h]

theorem reportsHighest_iff (listing : Listing) :
    ReportsHighest listing ↔ FirstRowsHighest listing := by
  constructor
  · intro h scn hscn
    have hpos : 0 ≤ listing.firstSCNs.foldl max (-1) := by
      obtain ⟨table, htable, -⟩ := hscn
      have hfirst : table.first.nextSCN ∈ listing.firstSCNs := List.mem_map_of_mem htable
      exact (table.first.nonneg).trans
        ((foldl_max_spec _ (-1)).1 _ (List.mem_cons_of_mem _ hfirst))
    obtain ⟨top, htop, heq⟩ := h _ "" _ rfl (physicalBackupMetadata_answering "" hpos)
    have hmax := toString_inj_of_nonneg hpos (scns_nonneg htop.1) heq
    exact ⟨_, foldl_firstSCNs_mem hpos, hmax ▸ htop.2 hscn⟩
  · intro h env backupTag r hout hr
    obtain ⟨hpos, hscn⟩ := backupScn_eq hout hr
    refine ⟨_, ⟨firstSCNs_subset (foldl_firstSCNs_mem hpos), ?_⟩, hscn⟩
    intro n hn
    obtain ⟨first, hfirst, hle⟩ := h n hn
    exact hle.trans ((foldl_max_spec _ (-1)).1 _ (List.mem_cons_of_mem _ hfirst))

end Highest

section Sample

/-- A backup set with two archived logs, as RMAN lists it. -/
def twoLogs : Listing where
  before := ["List of Backup Sets", "===================", ""]
  tables :=
    [{ head := "  Thrd Seq     Low SCN    Low Time  Next SCN   Next Time"
       rule := "  ---- ------- ---------- --------- ---------- ---------"
       first :=
        { line := "  1    1       1527386    30-JUL-21 1530961    30-JUL-21"
          nextSCN := 1530961
          isPlain := by decide +kernel
          row := ⟨"1", "1", "1527386", "30-JUL-21", "1530961", "30-JUL-21", by decide +kernel,
            by decide⟩
          nonneg := by decide }
       others :=
        [{ line := "  1    2       1530961    30-JUL-21 1531022    30-JUL-21"
           nextSCN := 1531022
           isPlain := by decide +kernel
           row := ⟨"1", "2", "1530961", "30-JUL-21", "1531022", "30-JUL-21", by decide +kernel,
            by decide⟩
           nonneg := by decide }]
       after := [""]
       head_line := by decide +kernel
       head_names := by decide
       rule_plain := by decide +kernel
       after_plain := by decide +kernel }]
  before_plain := by decide +kernel

/-- The second log, which has the highest SCN, is left out. -/
theorem second_row_overlooked : ¬ ReportsHighest twoLogs := by
  intro h
  obtain ⟨top, htop, heq⟩ := h (answering twoLogs) "" ⟨"1530961", "1", date 2022 1 1⟩ rfl
    (physicalBackupMetadata_answering "" (by decide))
  have hlater : (1531022 : Int) ∈ twoLogs.scns :=
    ⟨_, List.mem_singleton_self _, _, List.mem_cons_of_mem _ (List.mem_singleton_self _), rfl⟩
  have htop' := toString_inj_of_nonneg (by decide : (0 : Int) ≤ 1530961) (scns_nonneg htop.1) heq
  have hle := htop.2 hlater
  omega

end Sample

end ElCarro.Backups.BackupScn
