import ElCarro.Lib.Float64
import ElCarro.Lib.LastWrites
import ElCarro.Lib.RowBuffer
import ElCarro.Lib.Strconv

/-! # Metrics from query results

A metric set has a query; its metrics and labels are read from the columns of the result
that are named after them. All rows are scanned into the same values, and the columns of
the metrics are looked up once, before the first row.
-/

namespace ElCarro.Monitoring

open RowBuffer LastWrites

inductive Usage where
  | label | gauge | counter | histogram
  /-- Any other text of the configuration. -/
  | other (text : String)
  deriving DecidableEq, Repr

/-- A metric of the configuration. -/
structure Metric where
  name : String
  desc : String
  usage : Usage
  /-- The upper bounds of a histogram by the key of their column. -/
  buckets : List (String × Float64.Value)
  nodup : (buckets.map Prod.fst).Nodup
  deriving DecidableEq, Repr

structure MetricSet where
  name : String
  ns : String
  metrics : List Metric
  deriving DecidableEq, Repr

def sortedKeys (m : Metric) : List String := (m.buckets.map Prod.fst).mergeSort (· ≤ ·)

/-- The bound of a key, which is zero for one that there is not. -/
def Metric.bound (m : Metric) (key : String) : Float64.Value :=
  (m.buckets.lookup key).getD (.finite 0)

section Values

/-- What a driver returns for a cell. -/
inductive Value where
  | string (s : String)
  | bytes (s : String)
  | int (n : Int64)
  | uint (n : UInt64)
  | int32 (n : Int32)
  | uint32 (n : UInt32)
  | int64 (n : Int64)
  | uint64 (n : UInt64)
  | float32 (x : Float64.Value)
  | float64 (x : Float64.Value)
  | time (unix : Int64)
  | null
  /-- A type that the parsers do not list. -/
  | other (type : String)
  deriving DecidableEq, Repr

/-- The integer of a cell that has one of the integer kinds. -/
def Value.integer : Value → Option ℤ
  | .int n | .int64 n => some n.toInt
  | .uint n | .uint64 n => some n.toNat
  | .int32 n => some n.toInt
  | .uint32 n => some n.toNat
  | _ => none

/-- Conversions between text and floating-point numbers, and to an integer from any of
these, which is up to the implementation for the large ones. -/
structure Conversions where
  formatFloat : Float64.Value → String
  parseFloat : String → Float64.Value
  truncate : Float64.Value → UInt64

variable (conv : Conversions)

def parseString : Value → String
  | .string s | .bytes s => s
  | .int n | .int64 n | .time n => toString n.toInt
  | .uint n | .uint64 n => toString n.toNat
  | .int32 n => toString n.toInt
  | .uint32 n => toString n.toNat
  | .float32 x | .float64 x => conv.formatFloat x
  | .null | .other _ => ""

/-- `none` is a panic: a case of several types asserts one of them. -/
def parseUint64 : Value → Option UInt64
  | .string s | .bytes s => some (Strconv.parseUint s)
  | .int _ | .uint _ | .int32 _ | .uint32 _ => none
  | .uint64 n => some n
  | .int64 n => some n.toUInt64
  | .float32 _ => none
  | .float64 x => some (conv.truncate x)
  | .time unix => some unix.toUInt64
  | .null | .other _ => some 0

def parseFloat64 : Value → Option Float64.Value
  | .string s | .bytes s => some (conv.parseFloat s)
  | .int _ | .uint _ | .int32 _ | .uint32 _ | .uint64 _ => none
  | .int64 n => some (Float64.ofInt n.toInt)
  | .float32 _ => none
  | .float64 x => some x
  | .time unix => some (Float64.ofInt unix.toInt)
  | .null | .other _ => some (.finite 0)

end Values

section Query

/-- The cells that are read and what the parsers make of them. -/
structure Parsers (C S U F : Type) where
  null : C
  parseString : C → S
  parseUint64 : C → Option U
  parseFloat64 : C → Option F

def parsers (conv : Conversions) : Parsers Value String UInt64 Float64.Value where
  null := .null
  parseString := parseString conv
  parseUint64 := parseUint64 conv
  parseFloat64 := parseFloat64 conv

structure QueryResult (C : Type) where
  columns : List String
  rows : List (Row C)
  wide : ∀ row ∈ rows, row.cells.length = columns.length

inductive Body (U F : Type) where
  | counter (x : F)
  | gauge (x : F)
  | histogram (count : U) (sum : F) (buckets : List (Float64.Value × U))
  deriving DecidableEq, Repr

structure Sample (S U F : Type) where
  fqName : String
  help : String
  labels : List (String × S)
  body : Body U F
  deriving DecidableEq, Repr

/-- What comes of a metric in one row. -/
inductive Outcome (S U F : Type) where
  | skipped
  | failed
  | emitted (s : Sample S U F)
  deriving DecidableEq, Repr

/-- What is used of other packages: the lower case of a text, and whether a metric can be
made with a name and the names of its labels. The texts of labels would matter only if they
were not valid UTF-8. -/
structure Packages where
  toLower : String → String
  accepts : String → List String → Bool

variable {C S U F : Type} (p : Parsers C S U F) (pkg : Packages)

/-- The name of the column of a metric. -/
def Metric.column (m : Metric) : String := pkg.toLower m.name

variable (ms : MetricSet) (columns : List String)

def columnNames : List String := columns.map pkg.toLower

/-- `columnToIdx`: of the columns of one name the last. -/
def columnToIdx (name : String) : Option ℕ :=
  (puts [] (columnNames pkg columns).zipIdx).lookup name

/-- The entry of `forMetric` or `forHistMetric`, zero when the column was not found. -/
def columnFor (name : String) : ℕ := (columnToIdx pkg columns name).getD 0

def readString (values : List C) (name : String) : Option S :=
  values[columnFor pkg columns name]?.map p.parseString

def readUint64 (values : List C) (name : String) : Option U :=
  values[columnFor pkg columns name]?.bind p.parseUint64

def readFloat64 (values : List C) (name : String) : Option F :=
  values[columnFor pkg columns name]?.bind p.parseFloat64

def labelMetrics : List Metric := ms.metrics.filter fun m => m.usage = .label

def newLabels (values : List C) : Option (List (String × S)) :=
  (labelMetrics ms).mapM fun m => do
    pure (m.name, ← readString p pkg columns values (m.column pkg))

/-- The name of the column of a bucket. -/
def Metric.bucketColumn (m : Metric) (key : String) : String := m.column pkg ++ "_" ++ key

def newBuckets (values : List C) (m : Metric) : Option (List (Float64.Value × U)) :=
  (sortedKeys m).mapM fun k => do
    pure (m.bound k, ← readUint64 p pkg columns values (m.bucketColumn pkg k))

def newBody (values : List C) (m : Metric) : Option (Option (Body U F)) :=
  match m.usage with
  | .counter => do
    pure (some (.counter (← readFloat64 p pkg columns values (m.column pkg))))
  | .gauge => do
    pure (some (.gauge (← readFloat64 p pkg columns values (m.column pkg))))
  | .histogram => do
    let bucketVals ← newBuckets p pkg columns values m
    let sum ← readFloat64 p pkg columns values (m.column pkg ++ "_sum")
    let count ← readUint64 p pkg columns values (m.column pkg ++ "_count")
    pure (some (.histogram count sum (puts [] bucketVals)))
  -- No case of the switch makes a metric.
  | .label | .other _ => pure none

def MetricSet.fqName (m : Metric) : String := ms.ns ++ "_" ++ ms.name ++ "_" ++ m.name

def newMetric (values : List C) (labels : List (String × S)) (m : Metric) :
    Option (Outcome S U F) := do
  if m.usage = .label then pure .skipped
  else match ← newBody p pkg columns values m with
    | none => pure .failed
    | some body =>
      if pkg.accepts (ms.fqName m) (labels.map Prod.fst) then
        pure (.emitted ⟨ms.fqName m, m.desc, labels, body⟩)
      else pure .failed

/-- The loop over the rows; `values` and `labels` stay from row to row. -/
def queryRows (values : List C) (labels : List (String × S)) :
    List (Row C) → Option (List (List (Outcome S U F)))
  | [] => some []
  | row :: rest => do
    let values := copyInto values row
    let labels := puts labels (← newLabels p pkg ms columns values)
    let outcomes ← ms.metrics.mapM (newMetric p pkg ms columns values labels)
    pure (outcomes :: (← queryRows values labels rest))

def queryOutcomes (result : QueryResult C) : Option (List (List (Outcome S U F))) :=
  queryRows p pkg ms result.columns (List.replicate result.columns.length p.null) []
    result.rows

def Outcome.sample : Outcome S U F → Option (Sample S U F)
  | .emitted s => some s
  | _ => none

def Outcome.isFailed : Outcome S U F → Bool
  | .failed => true
  | _ => false

/-- The metrics, and by how much the count of errors has grown; `result` is `none` when the
query fails or its columns cannot be read. -/
def queryMetrics (result : Option (QueryResult C)) : Option (List (Sample S U F) × ℕ) :=
  match result with
  | none => some ([], 1)
  | some result => do
    let outcomes := (← queryOutcomes p pkg ms result).flatten
    pure (outcomes.filterMap Outcome.sample, outcomes.countP Outcome.isFailed)

end Query

end ElCarro.Monitoring
