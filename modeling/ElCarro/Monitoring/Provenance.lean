import ElCarro.Monitoring.Tracking

/-! # Where the values of metrics come from

A sample is to have its values from the columns of its own name in its own row. A column
that is not in the result is read as the first one, and a row that is not scanned as the
one before it; of the kinds of integers some make the parsers panic, and some numbers do
not fit what they are converted to.
-/

namespace ElCarro.Monitoring

open RowBuffer LastWrites

section Sources

variable (pkg : Packages) (columns : List String)

/-- The cell is one of a row and of a column with a name. -/
def Own (r : ℕ) (name : String) (cell : Cell) : Prop :=
  ∃ c, cell.origin = some (r, c) ∧ (columnNames pkg columns)[c]? = some name

/-- What a reading of an integer is to be. -/
class Represents (X : Type) where
  represents : X → ℤ → Prop

instance : Represents String := ⟨fun s n => s = toString n⟩

instance : Represents UInt64 := ⟨fun u n => (u.toNat : ℤ) = n⟩

instance : Represents Float64.Value := ⟨fun x n => x = .finite n⟩

/-- A value is taken from the own column in the own row, and is exactly the integer there. -/
structure Sourced {X : Type} [Represents X] (r : ℕ) (name : String) (x : Reading X) : Prop where
  own : Own pkg columns r name x.cell
  integer : ∀ n, x.cell.value.integer = some n → Represents.represents x.parsed n

/-- The keys whose buckets are emitted; of those with one bound it is the last. -/
def Metric.bucketKeys (m : Metric) : List String := lastKeys m.bound (sortedKeys m)

def BodySourced (r : ℕ) (m : Metric) : Body (Reading UInt64) (Reading Float64.Value) → Prop
  | .counter x | .gauge x => Sourced pkg columns r (m.column pkg) x
  | .histogram count sum buckets =>
    Sourced pkg columns r (m.column pkg ++ "_count") count ∧
      Sourced pkg columns r (m.column pkg ++ "_sum") sum ∧
      List.Forall₂ (fun k e => e.1 = m.bound k ∧
        Sourced pkg columns r (m.bucketColumn pkg k) e.2) m.bucketKeys buckets

structure SampleSourced (r : ℕ) (m : Metric)
    (s : Sample (Reading String) (Reading UInt64) (Reading Float64.Value)) : Prop where
  labels : ∀ e ∈ s.labels, Sourced pkg columns r (pkg.toLower e.1) e.2
  body : BodySourced pkg columns r m s.body

/-- The query returns, and every sample that is emitted for a row, with its labels and
buckets, has its values from there. -/
def AllSourced (conv : Conversions) (ms : MetricSet) (result : QueryResult Value) : Prop :=
  ∃ batches, queryOutcomes (tracking conv) pkg ms (track result) = some batches ∧
    List.Forall₂ (fun r => List.Forall₂ (fun m o => ∀ s, o = .emitted s →
        SampleSourced pkg result.columns r m s) ms.metrics)
      (List.range result.rows.length) batches

end Sources

section Reads

inductive Role where
  | string | uint | float
  deriving DecidableEq, Repr

/-- The parser does not panic. -/
def Role.parses : Role → Value → Bool
  | .uint, .int _ | .uint, .uint _ | .uint, .int32 _ | .uint, .uint32 _
  | .uint, .float32 _ => false
  | .float, .int _ | .float, .uint _ | .float, .int32 _ | .float, .uint32 _
  | .float, .uint64 _ | .float, .float32 _ => false
  | _, _ => true

/-- The integers that the result can hold. -/
def Role.fits : Role → Value → Bool
  | .uint, .int64 n => decide (0 ≤ n.toInt)
  | .float, .int64 n => decide (Float64.ulp 53 n.toInt.natAbs ∣ n.toInt.natAbs)
  | _, _ => true

/-- A column that is read, and what it is read as. -/
structure Read where
  role : Role
  column : String
  deriving DecidableEq, Repr

/-- A parser keeps to a role. -/
structure Keeps {X : Type} [Represents X] (role : Role) (parse : Value → Option X) : Prop where
  parses : ∀ v, (parse v).isSome = role.parses v
  fits : ∀ v x, parse v = some x →
    ((∀ n, v.integer = some n → Represents.represents x n) ↔ role.fits v = true)

variable (conv : Conversions)

theorem keeps_parseString : Keeps .string (fun v => some (parseString conv v)) where
  parses v := by cases v <;> rfl
  fits v x hx := by
    rw [← Option.some.inj hx]
    cases v <;> simp [Value.integer, Represents.represents, parseString, Role.fits] <;> rfl

theorem toNat_toUInt64_eq_iff (n : Int64) : (n.toUInt64.toNat : ℤ) = n.toInt ↔ 0 ≤ n.toInt := by
  have hlt := n.toBitVec.isLt
  rw [← Int64.toNat_toBitVec, ← Int64.toInt_toBitVec, BitVec.toInt_eq_toNat_cond]
  split <;> omega

theorem keeps_parseUint64 : Keeps .uint (parseUint64 conv) where
  parses v := by cases v <;> rfl
  fits v x hx := by
    cases v <;>
      simp_all [Value.integer, Represents.represents, parseUint64, Role.fits]
    subst hx
    exact toNat_toUInt64_eq_iff _

theorem keeps_parseFloat64 : Keeps .float (parseFloat64 conv) where
  parses v := by cases v <;> rfl
  fits v x hx := by
    cases v <;>
      simp_all [Value.integer, Represents.represents, parseFloat64, Role.fits]
    subst hx
    exact Float64.ofInt_eq_iff

variable {pkg : Packages} {columns : List String} {values : List Cell} {r : ℕ} {name : String}

variable (pkg columns values) in
/-- A column is read as something that can be parsed. -/
def Parses (x : Read) : Prop :=
  ∃ cell, values[columnFor pkg columns x.column]? = some cell ∧ x.role.parses cell.value = true

variable (pkg columns values) in
/-- A column is read where it stands, and has no number that does not fit. -/
def Serves (r : ℕ) (x : Read) : Prop :=
  ∃ cell, values[columnFor pkg columns x.column]? = some cell ∧
    Own pkg columns r x.column cell ∧ x.role.fits cell.value = true

section Parser

variable {X : Type} [Represents X] {role : Role} {parse : Value → Option X} {i : ℕ}

/-- Parse a cell and keep it. -/
def readCell (parse : Value → Option X) (c : Cell) : Option (Reading X) :=
  (parse c.value).map (⟨c, ·⟩)

theorem exists_readCell_iff (h : Keeps role parse) :
    (∃ x, values[i]?.bind (readCell parse) = some x) ↔
      ∃ cell, values[i]? = some cell ∧ role.parses cell.value = true := by
  cases hi : values[i]? with
  | none => simp
  | some cell =>
    simp only [Option.bind_some, readCell, Option.some.injEq, exists_eq_left', ← h.parses]
    rw [← Option.isSome_iff_exists, Option.isSome_map]

theorem sourced_readCell_iff (h : Keeps role parse) {x : Reading X}
    (hx : values[i]?.bind (readCell parse) = some x) :
    Sourced pkg columns r name x ↔
      ∃ cell, values[i]? = some cell ∧ Own pkg columns r name cell ∧
        role.fits cell.value = true := by
  obtain ⟨cell, hcell, hread⟩ := Option.bind_eq_some_iff.mp hx
  obtain ⟨y, hy, rfl⟩ := Option.map_eq_some_iff.mp hread
  rw [hcell]
  simp only [Option.some.injEq, exists_eq_left', ← h.fits _ _ hy]
  exact ⟨fun hs => ⟨hs.own, hs.integer⟩, fun ⟨hown, hint⟩ => ⟨hown, hint⟩⟩

end Parser

theorem readString_eq : readString (tracking conv) pkg columns values name =
    values[columnFor pkg columns name]?.bind
      (readCell fun v => some (parseString conv v)) := by
  rw [readString]
  cases values[columnFor pkg columns name]? <;> rfl

theorem exists_readString_iff :
    (∃ x, readString (tracking conv) pkg columns values name = some x) ↔
      Parses pkg columns values ⟨.string, name⟩ := by
  rw [readString_eq]
  exact exists_readCell_iff (keeps_parseString conv)

theorem exists_readUint64_iff :
    (∃ x, readUint64 (tracking conv) pkg columns values name = some x) ↔
      Parses pkg columns values ⟨.uint, name⟩ :=
  exists_readCell_iff (keeps_parseUint64 conv)

theorem exists_readFloat64_iff :
    (∃ x, readFloat64 (tracking conv) pkg columns values name = some x) ↔
      Parses pkg columns values ⟨.float, name⟩ :=
  exists_readCell_iff (keeps_parseFloat64 conv)

variable {conv}

theorem sourced_readString_iff {x : Reading String}
    (h : readString (tracking conv) pkg columns values name = some x) :
    Sourced pkg columns r name x ↔ Serves pkg columns values r ⟨.string, name⟩ :=
  sourced_readCell_iff (keeps_parseString conv) (readString_eq conv ▸ h)

theorem sourced_readUint64_iff {x : Reading UInt64}
    (h : readUint64 (tracking conv) pkg columns values name = some x) :
    Sourced pkg columns r name x ↔ Serves pkg columns values r ⟨.uint, name⟩ :=
  sourced_readCell_iff (keeps_parseUint64 conv) h

theorem sourced_readFloat64_iff {x : Reading Float64.Value}
    (h : readFloat64 (tracking conv) pkg columns values name = some x) :
    Sourced pkg columns r name x ↔ Serves pkg columns values r ⟨.float, name⟩ :=
  sourced_readCell_iff (keeps_parseFloat64 conv) h

end Reads

section Bodies

variable (pkg : Packages) (columns : List String) (values : List Cell)

/-- The columns that are read for a metric with some keys of buckets. -/
def Metric.columnsFor (m : Metric) (keys : List String) : List Read :=
  match m.usage with
  | .label => [⟨.string, m.column pkg⟩]
  | .counter | .gauge => [⟨.float, m.column pkg⟩]
  | .histogram => keys.map (fun k => ⟨.uint, m.bucketColumn pkg k⟩) ++
    [⟨.float, m.column pkg ++ "_sum"⟩, ⟨.uint, m.column pkg ++ "_count"⟩]
  | .other _ => []

def Metric.reads (m : Metric) : List Read := m.columnsFor pkg (sortedKeys m)

/-- The columns whose values are emitted. -/
def Metric.served (m : Metric) : List Read := m.columnsFor pkg m.bucketKeys

def Metric.measured (m : Metric) : Bool :=
  match m.usage with
  | .counter | .gauge | .histogram => true
  | .label | .other _ => false

variable {pkg columns values} (conv : Conversions) {m : Metric} {r : ℕ}

theorem exists_newBuckets_iff :
    (∃ b, newBuckets (tracking conv) pkg columns values m = some b) ↔
      ∀ k ∈ sortedKeys m, Parses pkg columns values ⟨.uint, m.bucketColumn pkg k⟩ := by
  rw [newBuckets, exists_mapM_eq_some_iff]
  refine forall₂_congr fun k _ => ?_
  rw [← exists_readUint64_iff conv]
  cases readUint64 (tracking conv) pkg columns values (m.bucketColumn pkg k) <;> simp

theorem exists_newBody_iff (hm : m.usage ≠ .label) :
    (∃ body, newBody (tracking conv) pkg columns values m = some body) ↔
      ∀ x ∈ m.reads pkg, Parses pkg columns values x := by
  cases husage : m.usage with
  | label => exact absurd husage hm
  | other text => simp [newBody, Metric.reads, Metric.columnsFor, husage]
  | counter =>
    simp only [newBody, Metric.reads, Metric.columnsFor, husage, List.forall_mem_singleton,
      ← exists_readFloat64_iff conv]
    cases readFloat64 (tracking conv) pkg columns values (m.column pkg) <;> simp
  | gauge =>
    simp only [newBody, Metric.reads, Metric.columnsFor, husage, List.forall_mem_singleton,
      ← exists_readFloat64_iff conv]
    cases readFloat64 (tracking conv) pkg columns values (m.column pkg) <;> simp
  | histogram =>
    simp only [newBody, Metric.reads, Metric.columnsFor, husage, List.forall_mem_append,
      List.forall_mem_map, List.forall_mem_cons, List.mem_nil_iff, false_implies,
      implies_true, and_true]
    rw [← exists_newBuckets_iff conv, ← exists_readFloat64_iff conv,
      ← exists_readUint64_iff conv]
    cases newBuckets (tracking conv) pkg columns values m <;>
      cases readFloat64 (tracking conv) pkg columns values (m.column pkg ++ "_sum") <;>
      cases readUint64 (tracking conv) pkg columns values (m.column pkg ++ "_count") <;> simp

variable {conv}

/-- The buckets that are emitted, each with the reading of its key. -/
theorem forall₂_newBuckets {b : List (Float64.Value × Reading UInt64)}
    (h : newBuckets (tracking conv) pkg columns values m = some b) :
    List.Forall₂ (fun k e => e.1 = m.bound k ∧
      readUint64 (tracking conv) pkg columns values (m.bucketColumn pkg k) = some e.2)
      m.bucketKeys (puts [] b) := by
  rw [puts_nil]
  refine forall₂_lastWrites (R := fun k u => readUint64 (tracking conv) pkg columns values
    (m.bucketColumn pkg k) = some u) ((mapM_eq_some_iff.mp h).imp fun k e he => ?_)
  cases hread : readUint64 (tracking conv) pkg columns values (m.bucketColumn pkg k) with
  | none => simp [hread] at he
  | some u =>
    simp only [hread, Option.bind_eq_bind, Option.bind_some, Option.pure_def,
      Option.some.injEq] at he
    subst he
    exact ⟨rfl, rfl⟩

theorem bodySourced_iff {body : Body (Reading UInt64) (Reading Float64.Value)}
    (h : newBody (tracking conv) pkg columns values m = some (some body)) :
    BodySourced pkg columns r m body ↔ ∀ x ∈ m.served pkg, Serves pkg columns values r x := by
  cases husage : m.usage with
  | label => simp [newBody, husage] at h
  | other text => simp [newBody, husage] at h
  | counter =>
    simp only [newBody, husage, Option.bind_eq_bind, Option.bind_eq_some_iff,
      Option.pure_def, Option.some.injEq] at h
    obtain ⟨x, hx, rfl⟩ := h
    simp only [BodySourced, Metric.served, Metric.columnsFor, husage, List.forall_mem_singleton]
    exact sourced_readFloat64_iff hx
  | gauge =>
    simp only [newBody, husage, Option.bind_eq_bind, Option.bind_eq_some_iff,
      Option.pure_def, Option.some.injEq] at h
    obtain ⟨x, hx, rfl⟩ := h
    simp only [BodySourced, Metric.served, Metric.columnsFor, husage, List.forall_mem_singleton]
    exact sourced_readFloat64_iff hx
  | histogram =>
    simp only [newBody, husage, Option.bind_eq_bind, Option.bind_eq_some_iff,
      Option.pure_def, Option.some.injEq] at h
    obtain ⟨b, hb, sum, hsum, count, hcount, rfl⟩ := h
    simp only [BodySourced, Metric.served, Metric.columnsFor, husage, List.forall_mem_append,
      List.forall_mem_map, List.forall_mem_cons, List.mem_nil_iff, false_implies,
      implies_true, and_true]
    rw [sourced_readUint64_iff hcount, sourced_readFloat64_iff hsum,
      forall₂_iff_forall (forall₂_newBuckets hb)
        (S := fun k => Serves pkg columns values r ⟨.uint, m.bucketColumn pkg k⟩) fun k e he => ?_]
    · tauto
    · rw [sourced_readUint64_iff he.2]
      simp [he.1]

theorem measured_of_newBody {body : Option (Body (Reading UInt64) (Reading Float64.Value))}
    (h : newBody (tracking conv) pkg columns values m = some body) :
    m.measured = body.isSome := by
  unfold newBody at h
  unfold Metric.measured
  cases husage : m.usage <;>
    simp only [husage, Option.bind_eq_bind, Option.bind_eq_some_iff, Option.pure_def,
      Option.some.injEq] at h ⊢ <;>
    grind

end Bodies

section Labels

variable {pkg : Packages} {ms : MetricSet} {columns : List String}

theorem forall₂_newLabels {C S U F : Type} {p : Parsers C S U F} {values : List C}
    {new : List (String × S)} (h : newLabels p pkg ms columns values = some new) :
    List.Forall₂ (fun m e => e.1 = m.name ∧
      readString p pkg columns values (m.column pkg) = some e.2) (labelMetrics ms) new := by
  refine (mapM_eq_some_iff.mp h).imp fun m e he => ?_
  cases hread : readString p pkg columns values (m.column pkg) with
  | none => simp [hread] at he
  | some s =>
    simp only [hread, Option.bind_eq_bind, Option.bind_some, Option.pure_def,
      Option.some.injEq] at he
    subst he
    exact ⟨rfl, rfl⟩

/-- The names of the labels that are written. -/
def labelNames (ms : MetricSet) : List String :=
  (lastWrites ((labelMetrics ms).map fun m => (m.name, ()))).map Prod.fst

theorem map_fst_newLabels {C S U F : Type} {p : Parsers C S U F} {values : List C}
    {new : List (String × S)} (h : newLabels p pkg ms columns values = some new) :
    new.map Prod.fst = (labelMetrics ms).map Metric.name := by
  have hall := forall₂_newLabels h
  clear h
  generalize labelMetrics ms = ls at hall
  induction hall with
  | nil => rfl
  | cons he _ ih => rw [List.map_cons, List.map_cons, ih, he.1]

theorem map_fst_lastWrites_newLabels {C S U F : Type} {p : Parsers C S U F} {values : List C}
    {new : List (String × S)} (h : newLabels p pkg ms columns values = some new) :
    (lastWrites new).map Prod.fst = labelNames ms := by
  have hkeys : new.map (fun e => (e.1, ())) = (labelMetrics ms).map fun m => (m.name, ()) := by
    have hnames := congrArg (List.map fun name => (name, ())) (map_fst_newLabels h)
    simpa only [List.map_map, Function.comp_def] using hnames
  rw [labelNames, ← hkeys, lastWrites_map fun _ => (), List.map_map]
  rfl

variable {values : List Cell} (conv : Conversions) {r : ℕ}
  {new : List (String × Reading String)}

theorem exists_newLabels_iff :
    (∃ new, newLabels (tracking conv) pkg ms columns values = some new) ↔
      ∀ m ∈ labelMetrics ms, Parses pkg columns values ⟨.string, m.column pkg⟩ := by
  rw [newLabels, exists_mapM_eq_some_iff]
  refine forall₂_congr fun m _ => ?_
  rw [← exists_readString_iff conv]
  cases readString (tracking conv) pkg columns values (m.column pkg) <;> simp

variable {conv}

theorem labelsSourced_iff (h : newLabels (tracking conv) pkg ms columns values = some new) :
    (∀ e ∈ lastWrites new, Sourced pkg columns r (pkg.toLower e.1) e.2) ↔
      ∀ m ∈ labelMetrics ms, Serves pkg columns values r ⟨.string, m.column pkg⟩ := by
  have hall := forall₂_newLabels h
  have hsource : ∀ e ∈ new, Sourced pkg columns r (pkg.toLower e.1) e.2 ↔
      Serves pkg columns values r ⟨.string, pkg.toLower e.1⟩ := by
    intro e he
    obtain ⟨m, _, hname, hread⟩ := exists_mem_of_forall₂ hall.flip he
    rw [hname]
    exact sourced_readString_iff hread
  constructor
  · intro hlast m hm
    obtain ⟨e, he, hname, _⟩ := exists_mem_of_forall₂ hall hm
    obtain ⟨e', he', hkey⟩ := exists_lastWrites he
    have hserves := (hsource e' (lastWrites_subset new he')).mp (hlast e' he')
    rwa [hkey, hname] at hserves
  · intro hserves e he
    have hmem := lastWrites_subset new he
    obtain ⟨m, hm, hname, _⟩ := exists_mem_of_forall₂ hall.flip hmem
    rw [hsource e hmem, hname]
    exact hserves m hm

end Labels

section Rows

variable (pkg : Packages) (ms : MetricSet)

/-- A sample of the metric is emitted for every row. -/
def Reported (m : Metric) : Prop :=
  m.measured = true ∧ pkg.accepts (ms.fqName m) (labelNames ms) = true

/-- The columns of the labels and the metric itself. -/
def sampleReads (m : Metric) : List Read :=
  (labelMetrics ms).map (fun l => ⟨.string, l.column pkg⟩) ++ m.served pkg

variable {pkg ms} {columns : List String} {conv : Conversions} {values : List Cell} {r : ℕ}
  {new : List (String × Reading String)}

theorem forall_sampleReads_iff {m : Metric} {P : Read → Prop} :
    (∀ x ∈ sampleReads pkg ms m, P x) ↔
      (∀ l ∈ labelMetrics ms, P ⟨.string, l.column pkg⟩) ∧ ∀ x ∈ m.served pkg, P x := by
  rw [sampleReads, List.forall_mem_append, List.forall_mem_map]

theorem newMetric_sourced_iff (h : newLabels (tracking conv) pkg ms columns values = some new)
    (m : Metric) :
    (∃ o, newMetric (tracking conv) pkg ms columns values (lastWrites new) m = some o ∧
      ∀ s, o = .emitted s → SampleSourced pkg columns r m s) ↔
    (m.usage ≠ .label → ∀ x ∈ m.reads pkg, Parses pkg columns values x) ∧
      (Reported pkg ms m → ∀ x ∈ sampleReads pkg ms m, Serves pkg columns values r x) := by
  by_cases hlabel : m.usage = .label
  · have hmeasured : ¬ Reported pkg ms m := by simp [Reported, Metric.measured, hlabel]
    simp [newMetric, hlabel, hmeasured]
  · rw [← exists_newBody_iff conv hlabel]
    simp only [newMetric, hlabel, if_false]
    cases hbody : newBody (tracking conv) pkg columns values m with
    | none => simp [hlabel]
    | some body =>
      have hmeasured := measured_of_newBody hbody
      cases body with
      | none => simp [Reported, hmeasured]
      | some body =>
        simp only [Option.bind_eq_bind, Option.bind_some, map_fst_lastWrites_newLabels h]
        by_cases haccept : pkg.accepts (ms.fqName m) (labelNames ms) = true
        · have hsample : SampleSourced pkg columns r m
                ⟨ms.fqName m, m.desc, lastWrites new, body⟩ ↔
              ∀ x ∈ sampleReads pkg ms m, Serves pkg columns values r x := by
            rw [forall_sampleReads_iff, ← labelsSourced_iff h, ← bodySourced_iff hbody]
            exact ⟨fun hs => ⟨hs.labels, hs.body⟩, fun ⟨hl, hb⟩ => ⟨hl, hb⟩⟩
          simp [haccept, Reported, hmeasured, ← hsample, hlabel]
        · simp [haccept, Reported]

variable (conv pkg ms columns values) in
/-- The metrics of one row, which do not depend on the labels of the ones before. -/
def rowOutcomes : Option (List (Outcome (Reading String) (Reading UInt64)
    (Reading Float64.Value))) :=
  (newLabels (tracking conv) pkg ms columns values).bind fun new =>
    ms.metrics.mapM (newMetric (tracking conv) pkg ms columns values (lastWrites new))

theorem forall_reads_iff {P : Read → Prop} :
    (∀ m ∈ ms.metrics, ∀ x ∈ m.reads pkg, P x) ↔
      (∀ l ∈ labelMetrics ms, P ⟨.string, l.column pkg⟩) ∧
        ∀ m ∈ ms.metrics, m.usage ≠ .label → ∀ x ∈ m.reads pkg, P x := by
  have hlabel : ∀ m : Metric, m.usage = .label → m.reads pkg = [⟨.string, m.column pkg⟩] := by
    intro m hm
    rw [Metric.reads, Metric.columnsFor, hm]
  constructor
  · intro h
    refine ⟨fun l hl => ?_, fun m hm _ => h m hm⟩
    obtain ⟨hmem, husage⟩ := List.mem_filter.mp hl
    exact h l hmem _ (by simp [hlabel l (of_decide_eq_true husage)])
  · rintro ⟨hlabels, hothers⟩ m hm
    by_cases husage : m.usage = .label
    · rw [hlabel m husage, List.forall_mem_singleton]
      exact hlabels m (List.mem_filter.mpr ⟨hm, decide_eq_true husage⟩)
    · exact hothers m hm husage

theorem rowOutcomes_sourced_iff :
    (∃ outcomes, rowOutcomes pkg ms columns conv values = some outcomes ∧
      List.Forall₂ (fun m o => ∀ s, o = .emitted s → SampleSourced pkg columns r m s)
        ms.metrics outcomes) ↔
    (∀ m ∈ ms.metrics, ∀ x ∈ m.reads pkg, Parses pkg columns values x) ∧
      ∀ m ∈ ms.metrics, Reported pkg ms m →
        ∀ x ∈ sampleReads pkg ms m, Serves pkg columns values r x := by
  rw [forall_reads_iff, ← exists_newLabels_iff conv, rowOutcomes]
  cases hnew : newLabels (tracking conv) pkg ms columns values with
  | none => simp
  | some new =>
    simp only [Option.bind_some]
    rw [exists_mapM_iff]
    simp only [newMetric_sourced_iff hnew, forall_and]
    simp

end Rows

section Run

variable (conv : Conversions) (pkg : Packages) (ms : MetricSet)

theorem queryRows_eq (columns : List String) (null : Cell) (width : ℕ)
    (rows before : List (Row Cell)) (labels : List (String × Reading String))
    (hlabels : labels.map Prod.fst ⊆ (labelMetrics ms).map Metric.name) :
    queryRows (tracking conv) pkg ms columns (buffer null width before) labels rows =
      (List.range rows.length).mapM fun r => rowOutcomes pkg ms columns conv
        (buffer null width (before ++ rows.take (r + 1))) := by
  induction rows generalizing before labels with
  | nil => rfl
  | cons row rest ih =>
    rw [List.length_cons, List.range_succ_eq_map, List.mapM_cons, List.mapM_map, queryRows,
      ← buffer_append]
    simp only [Nat.zero_add, List.take_succ_cons, List.take_zero, Function.comp_def]
    rw [rowOutcomes]
    cases hnew : newLabels (tracking conv) pkg ms columns (buffer null width (before ++ [row])) with
    | none => rfl
    | some new =>
      have hkeys := map_fst_newLabels hnew
      have hputs : puts labels new = lastWrites new :=
        puts_of_keys_subset (hkeys ▸ hlabels)
      have hlast : (lastWrites new).map Prod.fst ⊆ (labelMetrics ms).map Metric.name :=
        hkeys ▸ List.map_subset _ (lastWrites_subset new)
      simp only [Option.bind_eq_bind, Option.bind_some, hputs, ih _ _ hlast, List.append_assoc,
        List.cons_append, List.nil_append]

variable {conv pkg ms} (result : QueryResult Value)

theorem take_wide (n : ℕ) :
    ∀ row ∈ (track result).rows.take n, row.cells.length = result.columns.length :=
  fun row hrow => (track result).wide row (List.mem_of_mem_take hrow)

/-- The values when the metrics of a row are built. -/
def valuesAt (r : ℕ) : List Cell :=
  buffer ⟨none, .null⟩ result.columns.length ((track result).rows.take (r + 1))

theorem allSourced_iff : AllSourced pkg conv ms result ↔ ∀ r < result.rows.length,
    (∀ m ∈ ms.metrics, ∀ x ∈ m.reads pkg, Parses pkg result.columns (valuesAt result r) x) ∧
      ∀ m ∈ ms.metrics, Reported pkg ms m →
        ∀ x ∈ sampleReads pkg ms m, Serves pkg result.columns (valuesAt result r) r x := by
  have hrun : queryOutcomes (tracking conv) pkg ms (track result) =
      (List.range result.rows.length).mapM fun r =>
        rowOutcomes pkg ms result.columns conv (valuesAt result r) := by
    rw [← show (track result).rows.length = result.rows.length by simp [track]]
    exact queryRows_eq conv pkg ms result.columns _ _ _ [] [] (List.nil_subset _)
  rw [AllSourced, hrun, exists_mapM_iff]
  simp only [rowOutcomes_sourced_iff, List.mem_range]

variable (pkg) in
/-- What the column shows at a row, or the first one in its place, can be parsed. -/
def ShowsParsable (r : ℕ) (x : Read) : Prop :=
  columnFor pkg result.columns x.column < result.columns.length ∧
    x.role.parses (shown .null (result.rows.take (r + 1))
      (columnFor pkg result.columns x.column)) = true

variable (pkg) in
/-- The column is there, the scan of the row gets to it, and its cell has no integer that
does not fit. -/
def Fresh (r : ℕ) (x : Read) : Prop :=
  x.column ∈ columnNames pkg result.columns ∧
    ∃ row, result.rows[r]? = some row ∧ columnFor pkg result.columns x.column < row.copied ∧
      ∃ v, row.cells[columnFor pkg result.columns x.column]? = some v ∧ x.role.fits v = true

variable {result}

theorem parses_valuesAt_iff {r : ℕ} {x : Read} :
    Parses pkg result.columns (valuesAt result r) x ↔ ShowsParsable pkg result r x := by
  have hvalue (c : ℕ) : (shown ⟨none, .null⟩ ((track result).rows.take (r + 1)) c).value =
      shown .null (result.rows.take (r + 1)) c := by
    rw [map_shown Cell.value, List.map_take, track_erase]
  rw [Parses, ShowsParsable, valuesAt]
  by_cases hc : columnFor pkg result.columns x.column < result.columns.length
  · rw [getElem?_buffer (take_wide result (r + 1)) hc]
    simp [hc, hvalue]
  · rw [List.getElem?_eq_none ((length_buffer (take_wide result _)).le.trans (Nat.not_lt.mp hc))]
    simp [hc]

theorem columnNames_columnFor_iff {columns : List String} {name : String} :
    (columnNames pkg columns)[columnFor pkg columns name]? = some name ↔
      name ∈ columnNames pkg columns := by
  constructor
  · exact List.mem_of_getElem?
  · intro hmem
    have hkeys : name ∈ (columnNames pkg columns).zipIdx.map Prod.fst := by
      rwa [List.zipIdx_map_fst]
    obtain ⟨i, hi, hwrite⟩ := exists_lookup_puts hkeys
    rw [columnFor, columnToIdx, hi, Option.getD_some]
    exact List.mk_mem_zipIdx_iff_getElem?.mp hwrite

theorem getElem?_trackRow (r : ℕ) (row : Row Value) (c : ℕ) :
    (trackRow r row).cells[c]? = row.cells[c]?.map fun v => ⟨some (r, c), v⟩ := by
  rw [trackRow, List.getElem?_mapIdx]

/-- Before a row is scanned, no value is of it. -/
theorem origin_lt {r c : ℕ} (hc : c < result.columns.length) {cell : Cell}
    (hcell : (buffer ⟨none, .null⟩ result.columns.length
      ((track result).rows.take r))[c]? = some cell)
    {r' c' : ℕ} (horigin : cell.origin = some (r', c')) : r' < r := by
  rw [getElem?_buffer (take_wide result r) hc, Option.some.injEq] at hcell
  subst hcell
  rcases shown_mem ⟨none, .null⟩ ((track result).rows.take r) c with hnull | ⟨row, hrow, hmem⟩
  · rw [hnull] at horigin
    cases horigin
  · obtain ⟨i, hi⟩ := List.mem_iff_getElem?.mp hrow
    obtain ⟨j, hj⟩ := List.mem_iff_getElem?.mp hmem
    rw [List.getElem?_take] at hi
    split at hi
    · rename_i hlt
      rw [track, List.getElem?_mapIdx] at hi
      obtain ⟨row', -, rfl⟩ := Option.map_eq_some_iff.mp hi
      rw [getElem?_trackRow] at hj
      obtain ⟨v, -, hv⟩ := Option.map_eq_some_iff.mp hj
      rw [← hv] at horigin
      cases horigin
      exact hlt
    · cases hi

/-- A value is of the row that was scanned last, or as it was before. -/
theorem getElem?_valuesAt {r : ℕ} {row : Row Value} (hrow : result.rows[r]? = some row) (c : ℕ) :
    (valuesAt result r)[c]? = if c < row.copied then row.cells[c]?.map fun v => ⟨some (r, c), v⟩
      else (buffer ⟨none, .null⟩ result.columns.length ((track result).rows.take r))[c]? := by
  have htrack : (track result).rows[r]? = some (trackRow r row) := by
    rw [track, List.getElem?_mapIdx, hrow]
    rfl
  have hlen : (trackRow r row).cells.length = (buffer (⟨none, .null⟩ : Cell)
      result.columns.length ((track result).rows.take r)).length := by
    rw [length_buffer (take_wide result r)]
    exact (track result).wide _ (List.mem_of_getElem? htrack)
  have hcopied : (trackRow r row).copied = row.copied := by simp [Row.copied, trackRow]
  rw [valuesAt, List.take_add_one, htrack, Option.toList_some, buffer_append,
    getElem?_copyInto hlen, hcopied, getElem?_trackRow]

theorem serves_valuesAt_iff {r : ℕ} {x : Read} (hr : r < result.rows.length) :
    Serves pkg result.columns (valuesAt result r) r x ↔ Fresh pkg result r x := by
  have hrow : result.rows[r]? = some result.rows[r] := List.getElem?_eq_getElem hr
  generalize result.rows[r] = row at hrow
  rw [Serves, Fresh, getElem?_valuesAt hrow, hrow]
  simp only [Option.some.injEq, exists_eq_left']
  by_cases hc : columnFor pkg result.columns x.column < row.copied
  · rw [if_pos hc]
    constructor
    · rintro ⟨cell, hcell, ⟨c, horigin, hname⟩, hfits⟩
      obtain ⟨v, hv, rfl⟩ := Option.map_eq_some_iff.mp hcell
      cases horigin
      exact ⟨columnNames_columnFor_iff.mp hname, hc, v, hv, hfits⟩
    · rintro ⟨hmem, -, v, hv, hfits⟩
      exact ⟨⟨some (r, _), v⟩, by rw [hv]; rfl,
        ⟨_, rfl, columnNames_columnFor_iff.mpr hmem⟩, hfits⟩
  · rw [if_neg hc]
    refine iff_of_false ?_ fun h => hc h.2.1
    rintro ⟨cell, hcell, ⟨c, horigin, -⟩, -⟩
    have hwithin := (List.getElem?_eq_some_iff.mp hcell).1
    rw [length_buffer (take_wide result r)] at hwithin
    exact absurd (origin_lt hwithin hcell horigin) (lt_irrefl r)

/-- The values of all that is emitted are taken from their own cells exactly when, at every
row, what is read can be parsed, and all that a sample is made of is fresh. -/
theorem queryMetrics_sourced_iff (conv : Conversions) (pkg : Packages) (ms : MetricSet)
    (result : QueryResult Value) :
    (queryMetrics (tracking conv) pkg ms (some (track result))).map
        (Prod.map (List.map (Sample.map Reading.parsed Reading.parsed Reading.parsed)) id) =
      queryMetrics (parsers conv) pkg ms (some result) ∧
    (AllSourced pkg conv ms result ↔ ∀ r < result.rows.length,
      (∀ m ∈ ms.metrics, ∀ x ∈ m.reads pkg, ShowsParsable pkg result r x) ∧
        ∀ m ∈ ms.metrics, Reported pkg ms m →
          ∀ x ∈ sampleReads pkg ms m, Fresh pkg result r x) := by
  refine ⟨queryMetrics_erase conv pkg ms result, ?_⟩
  rw [allSourced_iff]
  refine forall₂_congr fun r hr => ?_
  simp only [parses_valuesAt_iff, serves_valuesAt_iff hr]

/-- A gauge whose column is missing is emitted with the value of another one. -/
theorem missing_column_not_sourced :
    let conv : Conversions := ⟨fun _ => "", fun _ => .nan, fun _ => 0⟩
    let pkg : Packages := ⟨String.toLower, fun _ _ => true⟩
    let ms : MetricSet := ⟨"process", "ora", [⟨"count", "", .gauge, [], by decide⟩]⟩
    let result : QueryResult Value := ⟨["TOTAL"], [⟨[.int64 22], none⟩], by decide⟩
    queryMetrics (parsers conv) pkg ms (some result) =
        some ([⟨"ora_process_count", "", [], .gauge (.finite 22)⟩], 0) ∧
      ¬ AllSourced pkg conv ms result := by
  refine ⟨by decide +kernel, fun h => ?_⟩
  have hserves := (allSourced_iff _).mp h 0 (by decide)
  have hfresh := (serves_valuesAt_iff (by decide)).mp
    (hserves.2 _ List.mem_cons_self ⟨rfl, rfl⟩ ⟨.float, "count"⟩ (by decide +kernel))
  exact absurd hfresh.1 (by decide +kernel)

end Run

end ElCarro.Monitoring
