import ElCarro.Lib.Strconv
import Mathlib.Data.String.Basic
import Mathlib.Tactic.Positivity

/-! # Section sizes of a physical backup

A Backup asks for a section size as a quantity. The controller takes it as an integer of
32 bits, and the agent writes that into the statement for RMAN, in the largest unit of
which there is a whole one. A quantity without a fast conversion to an integer gives its
unscaled digits.
-/

namespace ElCarro.Backups.SectionSize

section Quantity

/-- A quantity of the cluster, as its methods show it: the number is `unscaled / 10 ^ scale`. -/
structure Quantity where
  /-- The number as an integer, where the conversion is a fast one. -/
  asInt64 : Option Int64
  unscaled : Int
  scale : Int
  same : ∀ v ∈ asInt64, v.toInt * 10 ^ scale.toNat = unscaled * 10 ^ (-scale).toNat

namespace Quantity

def isZero (q : Quantity) : Bool := q.unscaled = 0

/-- The whole units that the number has. -/
def floor (q : Quantity) : Int := q.unscaled * 10 ^ (-q.scale).toNat / 10 ^ q.scale.toNat

/-- `resource.NewQuantity`. -/
def new (v : Int64) : Quantity where
  asInt64 := some v
  unscaled := v.toInt
  scale := 0
  same w hw := by
    obtain rfl := Option.some.inj hw
    simp

end Quantity

end Quantity

section Controller

structure BackupSpec where
  subtype : String
  backupItems : Option (List String)
  backupset : Option Bool
  checkLogical : Bool
  compressed : Bool
  dop : Int32
  level : Int32
  filesperset : Int32
  sectionSize : Quantity
  localPath : String
  gcsPath : String

structure Backup where
  spec : BackupSpec
  backupTime : String
  uid : String

/-- Digits that do not fit are cut off, those of the unscaled number first. -/
def Backup.sectionSize (backup : Backup) : Int32 :=
  (backup.spec.sectionSize.asInt64.getD (Int64.ofInt backup.spec.sectionSize.unscaled)).toInt32

inductive SubType where
  | unknown | inst | database | tablespace | datafile
  deriving DecidableEq, Repr

/-- The number of a type, as messages show it. -/
def SubType.number : SubType → Nat
  | unknown => 0
  | inst => 1
  | database => 2
  | tablespace => 3
  | datafile => 4

def backupSubType (st : String) : SubType :=
  if st = "Instance" then .inst
  else if st = "Database" then .database
  else if st = "Tablespace" then .tablespace
  else if st = "Datafile" then .datafile
  else .inst

structure PhysicalBackupRequest where
  backupSubType : SubType
  backupItems : Option (List String)
  backupset : Bool
  compressed : Bool
  checkLogical : Bool
  dop : Int32
  level : Int32
  filesperset : Int32
  sectionSize : Int32
  localPath : String
  gcsPath : String
  backupTag : String
  operationID : String

/-- The request that `create` makes of a Backup. -/
def Backup.request (backup : Backup) : PhysicalBackupRequest where
  backupSubType := backupSubType backup.spec.subtype
  backupItems := backup.spec.backupItems
  backupset := backup.spec.backupset.getD true
  compressed := backup.spec.compressed
  checkLogical := backup.spec.checkLogical
  dop := if backup.spec.dop ≠ 0 then backup.spec.dop else 1
  level := backup.spec.level
  filesperset := backup.spec.filesperset
  sectionSize := backup.sectionSize
  localPath := backup.spec.localPath
  gcsPath := backup.spec.gcsPath
  backupTag := backup.backupTime
  operationID := "Backup_" ++ backup.uid

def granularity (req : PhysicalBackupRequest) : Except String String :=
  match req.backupSubType, req.backupItems with
  | .inst, _ => .ok "database"
  | .database, none =>
    .error ("config_agent_helpers/PhysicalBackup: failed a pre-flight check: a PDB backup is " ++
      "requested, but no PDB name(s) given")
  | .database, some items => .ok ("pluggable database " ++ ", ".intercalate items)
  | st, _ =>
    .error ("config_agent_helpers/PhysicalBackup: unsupported in this release sub backup type " ++
      "of " ++ toString st.number)

end Controller

section Agent

/-- The parameters of `backup.PhysicalBackup`; the name of the CDB is not among those given. -/
structure Params where
  cdbName : String
  granularity : String
  backupset : Bool
  dop : Int32
  checkLogical : Bool
  compressed : Bool
  level : Int32
  filesperset : Int32
  sectionSize : Quantity
  localPath : String
  gcsPath : String
  backupTag : String
  operationID : String

def PhysicalBackupRequest.params (req : PhysicalBackupRequest) (granularity : String) : Params where
  cdbName := ""
  granularity
  backupset := req.backupset
  dop := req.dop
  checkLogical := req.checkLogical
  compressed := req.compressed
  level := req.level
  filesperset := req.filesperset
  sectionSize := .new req.sectionSize.toInt64
  localPath := req.localPath
  gcsPath := req.gcsPath
  backupTag := req.backupTag
  operationID := req.operationID

/-- A size in one unit, if there is a whole one. -/
def scaled (size unit : Int64) (suffix otherwise : String) : String :=
  if 0 < size / unit then "section size " ++ toString (size / unit) ++ suffix else otherwise

def sectionSize (q : Quantity) : String :=
  if q.isZero then ""
  else
    match q.asInt64 with
    | none => ""
    | some size =>
      scaled size 1000000000 "G" (scaled size 1000000 "M" (scaled size 1000 "K"
        ("section size " ++ toString size)))

namespace Params

def channels (p : Params) : String :=
  String.join ((List.range p.dop.toInt.toNat).map fun i =>
    "allocate channel disk" ++ toString (i + 1) ++ " device type disk;\n")

/-- A backup to GCS goes to a staging directory first. -/
def backupDir (p : Params) : String :=
  if p.gcsPath ≠ "" then "/u03/app/oracle/rmanstaging"
  else if p.localPath ≠ "" then p.localPath
  else "/u03/app/oracle/rman"

/-- The statement up to the section size. -/
def beforeSize (p : Params) : String :=
  "run \x7b\n\t\t\tCONFIGURE SNAPSHOT CONTROLFILE NAME TO '" ++ p.backupDir ++ "/snapcf_" ++
    p.cdbName ++ ".f';\n\t\t\t" ++ p.channels ++ "\n\t\t\tbackup\n\t\t\t\tas " ++
    (if p.compressed then "compressed" else "") ++ " " ++
    (if p.backupset then "backupset" else "copy") ++ "\n\t\t\t\t" ++
    (if p.checkLogical then "check logical" else "") ++ "\n\t\t\t\t" ++
    (if p.filesperset ≠ 0 then "filesperset " ++ toString p.filesperset else "") ++ "\n\t\t\t\t"

def afterSize (p : Params) : String :=
  "\n\t\t\t\tincremental level " ++ toString p.level ++ "\n\t\t\t\tto destination '" ++
    p.backupDir ++ "'\n\t\t\t\ttag='" ++ p.backupTag ++ "' (" ++
    (if p.granularity ≠ "" then p.granularity else "database") ++
    ")\n\t\t\t\tplus archivelog;\n\t\t\tbackup\n\t\t\t\tto destination '" ++ p.backupDir ++
    "'\n \t\t\t\ttag='" ++ p.backupTag ++
    "'\n\t\t\t\t(spfile) (current controlfile);\n\t\t\x7d\n\t"

/-- The statement for RMAN, with a clause for the section size. -/
def backupStmt (p : Params) (clause : String) : String := p.beforeSize ++ clause ++ p.afterSize

end Params

structure RunRMANAsyncRequest where
  scripts : List String
  gcsPath : String
  localPath : String
  operationID : String
  deriving DecidableEq, Repr

/-- What one run meets before it sends its request; a text is that of an error. -/
structure Env where
  newClient : Option String
  createDirs : Option String

variable (env : Env)

/-- `backup.PhysicalBackup`, up to the request. -/
def Params.physicalBackup (p : Params) : Except String RunRMANAsyncRequest :=
  match env.createDirs with
  | some err => .error ("failed to create a backup dir \"" ++ p.backupDir ++ "\": " ++ err)
  | none =>
    if p.compressed ∧ ¬ p.backupset then
      .error ("oracle/PhysicalBackup: failed a pre-flight check: Image Copy type of backup is " ++
        "not compatible with a Compress setting")
    else
      .ok
        { scripts := [p.backupStmt (SectionSize.sectionSize p.sectionSize)]
          gcsPath := p.gcsPath
          localPath := p.localPath
          operationID := p.operationID }

/-- `PhysicalBackup` of the controller. -/
def PhysicalBackupRequest.physicalBackup (req : PhysicalBackupRequest) :
    Except String RunRMANAsyncRequest :=
  match granularity req with
  | .error err => .error err
  | .ok granularity =>
    match env.newClient with
    | some err =>
      .error ("config_agent_helpers/PhysicalBackup: failed to create database daemon client: " ++
        err)
    | none => (req.params granularity).physicalBackup env

end Agent

section Property

structure SizeUnit where
  bytes : Int
  suffix : String
  deriving DecidableEq, Repr

/-- The largest unit of which a size has a whole one. -/
def largestUnit (size : Int) : SizeUnit :=
  if 1000000000 ≤ size then ⟨1000000000, "G"⟩
  else if 1000000 ≤ size then ⟨1000000, "M"⟩
  else if 1000 ≤ size then ⟨1000, "K"⟩
  else ⟨1, ""⟩

/-- The whole units of a size. -/
def wholeUnits (size : Int) : Int := size / (largestUnit size).bytes

/-- The clause for a size, rounded down to its largest whole unit. -/
def clauseFor (size : Int) : String :=
  "section size " ++ toString (wholeUnits size) ++ (largestUnit size).suffix

/-- Whatever else a Backup says, its statement has the clause for the bytes that it asks for. -/
def StatesSize (q : Quantity) : Prop :=
  ∀ (env : Env) (backup : Backup) (g : String) (r : RunRMANAsyncRequest),
    backup.spec.sectionSize = q → granularity backup.request = .ok g →
    backup.request.physicalBackup env = .ok r →
      r.scripts = [(backup.request.params g).backupStmt (clauseFor q.floor)]

/-- Two sizes with as many whole units of the same kind. -/
structure SameWholeUnits (a b : Int) : Prop where
  unit : largestUnit a = largestUnit b
  count : wholeUnits a = wholeUnits b

/-- The conversions keep the size: it is an integer of 32 bits with a fast conversion. Without
one, the last 32 bits of the unscaled digits have to be a size with the same whole units. -/
def Fits (q : Quantity) : Prop :=
  match q.asInt64 with
  | some v => v.toInt < 2 ^ 31
  | none => 0 < q.unscaled.bmod (2 ^ 32) ∧ SameWholeUnits (q.unscaled.bmod (2 ^ 32)) q.floor

end Property

section Clause

theorem toInt_div {size unit : Int64} (hunit : 0 < unit.toInt) :
    (size / unit).toInt = size.toInt.tdiv unit.toInt := by
  apply Int64.toInt_div_of_ne_right
  rintro rfl
  revert hunit
  decide

theorem scaled_of_nonneg {size unit : Int64} {suffix otherwise : String} (hunit : 0 < unit.toInt)
    (hsize : 0 ≤ size.toInt) : scaled size unit suffix otherwise =
      if unit.toInt ≤ size.toInt then
        "section size " ++ toString (size.toInt / unit.toInt) ++ suffix
      else otherwise := by
  have hdiv : (size / unit).toInt = size.toInt / unit.toInt := by
    rw [toInt_div hunit, Int.tdiv_eq_ediv_of_nonneg hsize]
  have htext : toString (size / unit) = toString (size.toInt / unit.toInt) := by
    rw [← hdiv]
    rfl
  have hpos : 0 < size / unit ↔ unit.toInt ≤ size.toInt := by
    rw [Int64.lt_iff_toInt_lt, hdiv]
    change 1 ≤ size.toInt / unit.toInt ↔ _
    rw [Int.le_ediv_iff_mul_le hunit, one_mul]
  rw [scaled, htext]
  simp only [hpos]

theorem scaled_of_neg {size unit : Int64} {suffix otherwise : String} (hunit : 0 < unit.toInt)
    (hsize : size.toInt < 0) : scaled size unit suffix otherwise = otherwise := by
  have hneg : ¬ 0 < size / unit := by
    rw [Int64.lt_iff_toInt_lt, toInt_div hunit]
    change ¬ 0 < size.toInt.tdiv unit.toInt
    have hquot : 0 ≤ (-size.toInt).tdiv unit.toInt := Int.tdiv_nonneg (by omega) hunit.le
    rw [Int.neg_tdiv] at hquot
    omega
  rw [scaled, if_neg hneg]

theorem sectionSize_new {size : Int64} (h : size.toInt ≠ 0) : sectionSize (.new size) =
    scaled size 1000000000 "G" (scaled size 1000000 "M" (scaled size 1000 "K"
      ("section size " ++ toString size.toInt))) := by
  have hzero : (Quantity.new size).isZero = false := decide_eq_false h
  have htext : toString size = toString size.toInt := rfl
  rw [sectionSize, hzero, if_neg Bool.false_ne_true]
  simp only [Quantity.new, htext]

/-- A positive size is written in its largest whole unit. -/
theorem sectionSize_new_of_pos {size : Int64} (h : 0 < size.toInt) :
    sectionSize (.new size) = clauseFor size.toInt := by
  have hg : (1000000000 : Int64).toInt = 1000000000 := by decide
  have hm : (1000000 : Int64).toInt = 1000000 := by decide
  have hk : (1000 : Int64).toInt = 1000 := by decide
  rw [sectionSize_new h.ne', scaled_of_nonneg (by omega) h.le, scaled_of_nonneg (by omega) h.le,
    scaled_of_nonneg (by omega) h.le, hg, hm, hk]
  unfold clauseFor wholeUnits largestUnit
  split
  · rfl
  · split
    · rfl
    · split
      · rfl
      · simp only [Int.ediv_one, String.append_empty]

theorem sectionSize_new_of_neg {size : Int64} (h : size.toInt < 0) :
    sectionSize (.new size) = "section size " ++ toString size.toInt := by
  have hunits : 0 < (1000000000 : Int64).toInt ∧ 0 < (1000000 : Int64).toInt ∧
      0 < (1000 : Int64).toInt := by decide
  rw [sectionSize_new h.ne, scaled_of_neg hunits.1 h, scaled_of_neg hunits.2.1 h,
    scaled_of_neg hunits.2.2 h]

theorem largestUnit_cases (size : Int) : largestUnit size = ⟨1000000000, "G"⟩ ∨
    largestUnit size = ⟨1000000, "M"⟩ ∨ largestUnit size = ⟨1000, "K"⟩ ∨
    largestUnit size = ⟨1, ""⟩ := by
  unfold largestUnit
  split
  · exact .inl rfl
  · split
    · exact .inr (.inl rfl)
    · split
      · exact .inr (.inr (.inl rfl))
      · exact .inr (.inr (.inr rfl))

theorem wholeUnits_nonneg {size : Int} (h : 0 ≤ size) : 0 ≤ wholeUnits size := by
  apply Int.ediv_nonneg h
  rcases largestUnit_cases size with hu | hu | hu | hu
  all_goals
    rw [hu]
    decide

theorem suffix_head (size : Int) :
    ∀ c ∈ (largestUnit size).suffix.toList.head?, c.isDigit = false := by
  have hhead : "G".toList.head? = some 'G' ∧ "M".toList.head? = some 'M' ∧
      "K".toList.head? = some 'K' ∧ "".toList.head? = none := by simp
  intro c hc
  rcases largestUnit_cases size with hu | hu | hu | hu
  · rw [hu, hhead.1] at hc
    cases hc
    rfl
  · rw [hu, hhead.2.1] at hc
    cases hc
    rfl
  · rw [hu, hhead.2.2.1] at hc
    cases hc
    rfl
  · rw [hu, hhead.2.2.2] at hc
    cases hc

theorem largestUnit_of_suffix {a b : Int} (h : (largestUnit a).suffix = (largestUnit b).suffix) :
    largestUnit a = largestUnit b := by
  have hunits : ∀ u ∈ [(⟨1000000000, "G"⟩ : SizeUnit), ⟨1000000, "M"⟩, ⟨1000, "K"⟩, ⟨1, ""⟩],
      ∀ v ∈ [(⟨1000000000, "G"⟩ : SizeUnit), ⟨1000000, "M"⟩, ⟨1000, "K"⟩, ⟨1, ""⟩],
        u.suffix = v.suffix → u = v := by decide
  have hmem : ∀ size, largestUnit size ∈
      [(⟨1000000000, "G"⟩ : SizeUnit), ⟨1000000, "M"⟩, ⟨1000, "K"⟩, ⟨1, ""⟩] := by
    intro size
    simpa using largestUnit_cases size
  exact hunits _ (hmem a) _ (hmem b) h

theorem toList_toString {n : Int} (h : 0 ≤ n) : (toString n).toList = Nat.toDigits 10 n.toNat := by
  obtain ⟨k, rfl⟩ := Int.eq_ofNat_of_zero_le h
  change (Nat.repr k).toList = _
  rw [Nat.repr, String.toList_ofList, Int.toNat_natCast]

/-- A clause starts alike for every size, then come the digits and the unit. -/
theorem toList_clauseFor {size : Int} (h : 0 ≤ size) : (clauseFor size).toList =
    "section size ".toList ++
      (Nat.toDigits 10 (wholeUnits size).toNat ++ (largestUnit size).suffix.toList) := by
  have hsplit : ∀ a b c : String, (a ++ b ++ c).toList = a.toList ++ (b.toList ++ c.toList) := by
    intro a b c
    rw [String.toList_append, String.toList_append, List.append_assoc]
  rw [← toList_toString (wholeUnits_nonneg h)]
  exact hsplit _ _ _

/-- The clauses of two sizes tell their whole units apart. -/
theorem sameWholeUnits_of_clauseFor {a b : Int} (ha : 0 ≤ a) (hb : 0 ≤ b)
    (h : clauseFor a = clauseFor b) : SameWholeUnits a b := by
  have hlist := congrArg String.toList h
  rw [toList_clauseFor ha, toList_clauseFor hb] at hlist
  obtain ⟨hcount, hsuffix⟩ :=
    Strconv.toDigits_append_inj (suffix_head a) (suffix_head b) (List.append_cancel_left hlist)
  have hcount_a := wholeUnits_nonneg ha
  have hcount_b := wholeUnits_nonneg hb
  exact ⟨largestUnit_of_suffix (String.toList_inj.mp hsuffix), by omega⟩

theorem clauseFor_ne_neg {a b : Int} (ha : 0 ≤ a) (hb : b < 0) :
    "section size " ++ toString b ≠ clauseFor a := by
  intro h
  have hlist := congrArg String.toList h
  rw [toList_clauseFor ha, String.toList_append] at hlist
  have hrest := List.append_cancel_left hlist
  obtain ⟨k, rfl⟩ := Int.eq_negSucc_of_lt_zero hb
  have hsign : (toString (Int.negSucc k)).toList = '-' :: Nat.toDigits 10 (k + 1) := by
    change ("-" ++ Nat.repr (k + 1)).toList = _
    rw [String.toList_append, Nat.repr]
    simp
  rw [hsign] at hrest
  cases hdigits : Nat.toDigits 10 (wholeUnits a).toNat with
  | nil => exact Nat.toDigits_ne_nil hdigits
  | cons c cs =>
    rw [hdigits] at hrest
    obtain ⟨rfl, -⟩ := List.cons.inj hrest
    have hdigit : '-'.isDigit = true :=
      Nat.isDigit_of_mem_toDigits (by decide) (by decide) (hdigits ▸ List.mem_cons_self)
    revert hdigit
    decide

end Clause

section Statement

variable {q : Quantity}

theorem Params.backupStmt_inj {p : Params} {c c' : String} (h : p.backupStmt c = p.backupStmt c') :
    c = c' := by
  have hlist := congrArg String.toList h
  simp only [Params.backupStmt, String.toList_append] at hlist
  exact String.toList_inj.mp (List.append_cancel_left (List.append_cancel_right hlist))

/-- The integer that is cut to 32 bits. -/
def Quantity.converted (q : Quantity) : Int := (q.asInt64.map Int64.toInt).getD q.unscaled

theorem toInt_sectionSize (backup : Backup) :
    backup.sectionSize.toInt = backup.spec.sectionSize.converted.bmod (2 ^ 32) := by
  unfold Backup.sectionSize Quantity.converted
  cases backup.spec.sectionSize.asInt64 with
  | some v => exact Int64.toInt_toInt32 v
  | none =>
    rw [Option.getD_none, Int64.toInt_toInt32, Int64.toInt_ofInt]
    exact Int.bmod_bmod_of_dvd (by decide)

/-- The clause of a request is the one for another size if both have the same whole units. -/
theorem sectionSize_eq_clauseFor_iff {size : Int32} {n : Int} (hn : 0 ≤ n) :
    sectionSize (.new size.toInt64) = clauseFor n ↔
      0 < size.toInt ∧ SameWholeUnits size.toInt n := by
  have hto : size.toInt64.toInt = size.toInt := Int32.toInt_toInt64 size
  constructor
  · intro h
    rcases lt_trichotomy size.toInt 0 with hneg | hzero | hpos
    · rw [sectionSize_new_of_neg (by omega), hto] at h
      exact absurd h (clauseFor_ne_neg hn hneg)
    · have hempty : sectionSize (.new size.toInt64) = "" := by
        have hisZero : (Quantity.new size.toInt64).isZero = true := decide_eq_true (hto.trans hzero)
        rw [sectionSize, if_pos hisZero]
      have hlist := (toList_clauseFor hn).symm.trans (congrArg String.toList (h.symm.trans hempty))
      cases hlist
    · rw [sectionSize_new_of_pos (by omega), hto] at h
      exact ⟨hpos, sameWholeUnits_of_clauseFor hpos.le hn h⟩
  · rintro ⟨hpos, hsame⟩
    rw [sectionSize_new_of_pos (by omega), hto]
    unfold clauseFor
    rw [hsame.unit, hsame.count]

theorem Quantity.floor_nonneg (h : 0 < q.unscaled) : 0 ≤ q.floor := by
  apply Int.ediv_nonneg
  · positivity
  · positivity

/-- A Backup that says nothing but its section size. -/
def sizedBackup (q : Quantity) : Backup where
  spec := ⟨"Instance", none, none, false, false, 1, 0, 0, q, "", ""⟩
  backupTime := ""
  uid := ""

/-- Statements show the size exactly if it has the same whole units after the conversions. -/
theorem statesSize_iff_sameWholeUnits (h : 0 < q.unscaled) : StatesSize q ↔
    0 < q.converted.bmod (2 ^ 32) ∧ SameWholeUnits (q.converted.bmod (2 ^ 32)) q.floor := by
  have hn := Quantity.floor_nonneg h
  constructor
  · intro hstates
    have hscripts := hstates ⟨none, none⟩ (sizedBackup q) "database" _ rfl rfl rfl
    have hclause := Params.backupStmt_inj (List.cons.inj hscripts).1
    have hsize : (sizedBackup q).request.sectionSize.toInt = q.converted.bmod (2 ^ 32) :=
      toInt_sectionSize (sizedBackup q)
    rw [← hsize]
    exact (sectionSize_eq_clauseFor_iff hn).mp hclause
  · rintro hsame env backup g r rfl hg hr
    rw [← toInt_sectionSize, ← sectionSize_eq_clauseFor_iff hn] at hsame
    unfold PhysicalBackupRequest.physicalBackup at hr
    rw [hg] at hr
    simp only at hr
    split at hr
    · cases hr
    · unfold Params.physicalBackup at hr
      split at hr
      · cases hr
      · split at hr
        · cases hr
        · cases hr
          rw [← hsame]
          rfl

/-- A number with a fast conversion is the one it is converted to. -/
theorem floor_of_asInt64 {v : Int64} (h : q.asInt64 = some v) : q.floor = v.toInt := by
  have hsame := q.same v h
  rw [Quantity.floor, ← hsame]
  exact Int.mul_ediv_cancel _ (by positivity)

theorem pos_of_asInt64 {v : Int64} (h : q.asInt64 = some v) (hpos : 0 < q.unscaled) :
    0 < v.toInt := by
  have hsame := q.same v h
  have hprod : 0 < v.toInt * 10 ^ q.scale.toNat := by
    rw [hsame]
    positivity
  exact (mul_pos_iff_of_pos_right (by positivity)).mp hprod

/-- Above 31 bits, what is left of a size is negative, nothing, or fewer gigabytes. -/
theorem sameWholeUnits_bmod_iff {v : Int} (hpos : 0 < v) :
    (0 < v.bmod (2 ^ 32) ∧ SameWholeUnits (v.bmod (2 ^ 32)) v) ↔ v < 2 ^ 31 := by
  constructor
  · rintro ⟨hbmod, hsame⟩
    by_contra hlarge
    have hunit : largestUnit v = ⟨1000000000, "G"⟩ := if_pos (by omega)
    have hcount : v.bmod (2 ^ 32) / 1000000000 = v / 1000000000 := by
      have hwhole := hsame.count
      rwa [wholeUnits, wholeUnits, hsame.unit, hunit] at hwhole
    have hupper : v.bmod (2 ^ 32) < 2 ^ 31 := by
      have hlt := Int.bmod_lt (x := v) (show 0 < 2 ^ 32 by decide)
      exact lt_of_lt_of_eq hlt (by decide)
    -- at most two gigabytes are left, and a size of so few loses nothing but its sign
    have hwrapped : v.bmod (2 ^ 32) = v - 2 ^ 32 := by
      rw [Int.bmod, Int.emod_eq_of_lt hpos.le (by omega), if_neg (by omega)]
      rfl
    omega
  · intro hlt
    have hsame : v.bmod (2 ^ 32) = v := Int.bmod_eq_of_le (by omega) (by omega)
    rw [hsame]
    exact ⟨hpos, rfl, rfl⟩

/-- For every positive quantity, the statements of all Backups that ask for it show its bytes,
rounded down to the largest whole unit, exactly if it fits. -/
theorem statesSize_iff_fits (q : Quantity) (h : 0 < q.unscaled) : StatesSize q ↔ Fits q := by
  rw [statesSize_iff_sameWholeUnits h]
  unfold Fits Quantity.converted
  cases hfast : q.asInt64 with
  | some v =>
    rw [floor_of_asInt64 hfast]
    exact sameWholeUnits_bmod_iff (pos_of_asInt64 hfast h)
  | none => exact Iff.rfl

/-- The quantity "0.5G", five and eight zeros. -/
def halfG : Quantity where
  asInt64 := some 500000000
  unscaled := 5
  scale := -8
  same v hv := by
    obtain rfl := Option.some.inj hv
    decide

theorem halfG_stated : 0 < halfG.unscaled ∧ clauseFor halfG.floor = "section size 500M" ∧
    StatesSize halfG := by
  have hpos : 0 < halfG.unscaled := by decide
  have hfits : Fits halfG := by
    change (500000000 : Int64).toInt < 2 ^ 31
    decide
  exact ⟨hpos, by decide +kernel, (statesSize_iff_fits halfG hpos).mpr hfits⟩

/-- The quantities "3G", "4Gi" and "1500m", which is one byte and a half. -/
def threeG : Quantity := .new 3000000000

def fourGi : Quantity := .new 4294967296

def bytesAndAHalf : Quantity where
  asInt64 := none
  unscaled := 1500
  scale := 3
  same v hv := by cases hv

/-- The statements ask for a negative size, for none, and for 1000 times as much. -/
theorem sizes_not_stated :
    (0 < threeG.unscaled ∧ (sizedBackup threeG).sectionSize.toInt = -1294967296 ∧
      ¬ StatesSize threeG) ∧
    (0 < fourGi.unscaled ∧ (sizedBackup fourGi).sectionSize.toInt = 0 ∧ ¬ StatesSize fourGi) ∧
    (0 < bytesAndAHalf.unscaled ∧ (sizedBackup bytesAndAHalf).sectionSize.toInt = 1500 ∧
      ¬ StatesSize bytesAndAHalf) := by
  have hscripts : ∀ q, StatesSize q →
      sectionSize (.new (sizedBackup q).sectionSize.toInt64) = clauseFor q.floor := by
    intro q hstates
    have hscripts := hstates ⟨none, none⟩ (sizedBackup q) "database" _ rfl rfl rfl
    exact Params.backupStmt_inj (List.cons.inj hscripts).1
  refine ⟨⟨by decide, by decide, ?_⟩, ⟨by decide, by decide, ?_⟩, ⟨by decide, by decide, ?_⟩⟩
  · intro h
    have hclause := hscripts _ h
    revert hclause
    decide +kernel
  · intro h
    have hclause := hscripts _ h
    revert hclause
    decide +kernel
  · intro h
    have hclause := hscripts _ h
    revert hclause
    decide +kernel

end Statement

end ElCarro.Backups.SectionSize
