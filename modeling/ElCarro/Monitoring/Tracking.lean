import ElCarro.Monitoring.Metrics

/-! # Metrics with the origin of their values

The query is run once more with cells that know their row and their column, and with
parsers that keep the cell beside what they make of it. This run emits what the other one
does.
-/

namespace ElCarro.Monitoring

open RowBuffer LastWrites

/-- A cell with its row and column; the values before the first row have none. -/
structure Cell where
  origin : Option (ℕ × ℕ)
  value : Value
  deriving DecidableEq, Repr

structure Reading (X : Type) where
  cell : Cell
  parsed : X
  deriving DecidableEq, Repr

def tracking (conv : Conversions) :
    Parsers Cell (Reading String) (Reading UInt64) (Reading Float64.Value) where
  null := ⟨none, .null⟩
  parseString c := ⟨c, parseString conv c.value⟩
  parseUint64 c := (parseUint64 conv c.value).map (⟨c, ·⟩)
  parseFloat64 c := (parseFloat64 conv c.value).map (⟨c, ·⟩)

def trackRow (r : ℕ) (row : Row Value) : Row Cell :=
  ⟨row.cells.mapIdx fun c v => ⟨some (r, c), v⟩, row.failedAt⟩

def track (result : QueryResult Value) : QueryResult Cell where
  columns := result.columns
  rows := result.rows.mapIdx trackRow
  wide := by
    intro row hrow
    obtain ⟨r, hr, rfl⟩ := List.mem_mapIdx.mp hrow
    simp [trackRow, result.wide _ (List.getElem_mem hr)]

section Erasure

variable {S U F S' U' F' : Type} (s : S → S') (u : U → U') (f : F → F')

def Body.map : Body U F → Body U' F'
  | .counter x => .counter (f x)
  | .gauge x => .gauge (f x)
  | .histogram count sum buckets =>
    .histogram (u count) (f sum) (buckets.map fun e => (e.1, u e.2))

def Sample.map (x : Sample S U F) : Sample S' U' F' :=
  ⟨x.fqName, x.help, x.labels.map fun e => (e.1, s e.2), x.body.map u f⟩

def Outcome.map : Outcome S U F → Outcome S' U' F'
  | .skipped => .skipped
  | .failed => .failed
  | .emitted x => .emitted (x.map s u f)

end Erasure

variable (conv : Conversions) (pkg : Packages) (ms : MetricSet) (columns : List String)

abbrev erase : Outcome (Reading String) (Reading UInt64) (Reading Float64.Value) →
    Outcome String UInt64 Float64.Value :=
  Outcome.map Reading.parsed Reading.parsed Reading.parsed

variable (values : List Cell)

theorem readString_erase (name : String) :
    (readString (tracking conv) pkg columns values name).map Reading.parsed =
      readString (parsers conv) pkg columns (values.map Cell.value) name := by
  simp only [readString, List.getElem?_map, Option.map_map]
  rfl

theorem readUint64_erase (name : String) :
    (readUint64 (tracking conv) pkg columns values name).map Reading.parsed =
      readUint64 (parsers conv) pkg columns (values.map Cell.value) name := by
  simp only [readUint64, List.getElem?_map, Option.map_bind, Option.bind_map]
  congr 1
  funext c
  simp [tracking, parsers, Function.comp_def]

theorem readFloat64_erase (name : String) :
    (readFloat64 (tracking conv) pkg columns values name).map Reading.parsed =
      readFloat64 (parsers conv) pkg columns (values.map Cell.value) name := by
  simp only [readFloat64, List.getElem?_map, Option.map_bind, Option.bind_map]
  congr 1
  funext c
  simp [tracking, parsers, Function.comp_def]

theorem newLabels_erase :
    (newLabels (tracking conv) pkg ms columns values).map
        (List.map fun e => (e.1, e.2.parsed)) =
      newLabels (parsers conv) pkg ms columns (values.map Cell.value) := by
  rw [newLabels, newLabels, map_mapM]
  congr 1
  funext m
  rw [← readString_erase]
  cases readString (tracking conv) pkg columns values (m.column pkg) <;> rfl

theorem newBuckets_erase (m : Metric) :
    (newBuckets (tracking conv) pkg columns values m).map
        (List.map fun e => (e.1, e.2.parsed)) =
      newBuckets (parsers conv) pkg columns (values.map Cell.value) m := by
  rw [newBuckets, newBuckets, map_mapM]
  congr 1
  funext k
  rw [← readUint64_erase]
  cases readUint64 (tracking conv) pkg columns values (m.bucketColumn pkg k) <;> rfl

theorem newBody_erase (m : Metric) :
    (newBody (tracking conv) pkg columns values m).map
        (Option.map (Body.map Reading.parsed Reading.parsed)) =
      newBody (parsers conv) pkg columns (values.map Cell.value) m := by
  unfold newBody
  cases m.usage with
  | label => rfl
  | other text => rfl
  | counter =>
    simp only [← readFloat64_erase]
    cases readFloat64 (tracking conv) pkg columns values (m.column pkg) <;> rfl
  | gauge =>
    simp only [← readFloat64_erase]
    cases readFloat64 (tracking conv) pkg columns values (m.column pkg) <;> rfl
  | histogram =>
    simp only [← newBuckets_erase, ← readFloat64_erase, ← readUint64_erase]
    cases newBuckets (tracking conv) pkg columns values m with
    | none => rfl
    | some bucketVals =>
      cases readFloat64 (tracking conv) pkg columns values (m.column pkg ++ "_sum") <;>
        cases readUint64 (tracking conv) pkg columns values (m.column pkg ++ "_count") <;>
        simp [Body.map, puts_nil, lastWrites_map]

theorem newMetric_erase (labels : List (String × Reading String)) (m : Metric) :
    (newMetric (tracking conv) pkg ms columns values labels m).map erase =
      newMetric (parsers conv) pkg ms columns (values.map Cell.value)
        (labels.map fun e => (e.1, e.2.parsed)) m := by
  unfold newMetric
  split
  · rfl
  · rw [← newBody_erase, List.map_map]
    cases newBody (tracking conv) pkg columns values m with
    | none => rfl
    | some body =>
      cases body with
      | none => rfl
      | some body =>
        simp only [Function.comp_def, Option.map_some, Option.bind_eq_bind, Option.bind_some]
        split <;> rfl

theorem queryRows_erase (rows : List (Row Cell)) (labels : List (String × Reading String)) :
    (queryRows (tracking conv) pkg ms columns values labels rows).map
        (List.map (List.map erase)) =
      queryRows (parsers conv) pkg ms columns (values.map Cell.value)
        (labels.map fun e => (e.1, e.2.parsed)) (rows.map (Row.map Cell.value)) := by
  induction rows generalizing values labels with
  | nil => rfl
  | cons row rest ih =>
    simp only [List.map_cons, queryRows, ← map_copyInto, ← newLabels_erase]
    cases newLabels (tracking conv) pkg ms columns (copyInto values row) with
    | none => rfl
    | some new =>
      have hlabels : (puts labels new).map (fun e => (e.1, e.2.parsed)) =
          puts (labels.map fun e => (e.1, e.2.parsed)) (new.map fun e => (e.1, e.2.parsed)) :=
        puts_map _ _ _
      have hmetrics : (ms.metrics.mapM (newMetric (tracking conv) pkg ms columns
            (copyInto values row) (puts labels new))).map (List.map erase) =
          ms.metrics.mapM (newMetric (parsers conv) pkg ms columns
            ((copyInto values row).map Cell.value)
            ((puts labels new).map fun e => (e.1, e.2.parsed))) := by
        rw [map_mapM]
        congr 1
        funext m
        exact newMetric_erase conv pkg ms columns _ _ m
      simp only [Option.map_some, Option.bind_eq_bind, Option.bind_some, ← hlabels, ← ih,
        ← hmetrics]
      cases ms.metrics.mapM (newMetric (tracking conv) pkg ms columns (copyInto values row)
          (puts labels new)) <;>
        cases queryRows (tracking conv) pkg ms columns (copyInto values row) (puts labels new)
          rest <;> rfl

theorem trackRow_erase (r : ℕ) (row : Row Value) : (trackRow r row).map Cell.value = row := by
  have hcells : (trackRow r row).cells.map Cell.value = row.cells := by
    refine List.ext_getElem? fun c => ?_
    rw [List.getElem?_map, trackRow, List.getElem?_mapIdx, Option.map_map]
    exact congrFun Option.map_id _
  rw [Row.map, hcells]
  rfl

theorem track_erase (result : QueryResult Value) :
    (track result).rows.map (Row.map Cell.value) = result.rows := by
  refine List.ext_getElem? fun r => ?_
  rw [List.getElem?_map, track, List.getElem?_mapIdx, Option.map_map]
  have hid : Row.map Cell.value ∘ trackRow r = id := funext fun row => trackRow_erase r row
  rw [hid, Option.map_id_apply]

theorem queryOutcomes_erase (result : QueryResult Value) :
    (queryOutcomes (tracking conv) pkg ms (track result)).map (List.map (List.map erase)) =
      queryOutcomes (parsers conv) pkg ms result := by
  rw [queryOutcomes, queryRows_erase, List.map_replicate]
  rw [track_erase]
  rfl

/-- The run that tracks the cells emits what the other one does. -/
theorem queryMetrics_erase (result : QueryResult Value) :
    (queryMetrics (tracking conv) pkg ms (some (track result))).map
        (Prod.map (List.map (Sample.map Reading.parsed Reading.parsed Reading.parsed)) id) =
      queryMetrics (parsers conv) pkg ms (some result) := by
  simp only [queryMetrics, ← queryOutcomes_erase]
  cases queryOutcomes (tracking conv) pkg ms (track result) with
  | none => rfl
  | some batches =>
    have hsample : Outcome.sample ∘ erase =
        Option.map (Sample.map Reading.parsed Reading.parsed Reading.parsed) ∘
          Outcome.sample := by
      funext o
      cases o <;> rfl
    have hfailed : Outcome.isFailed ∘ erase = Outcome.isFailed := by
      funext o
      cases o <;> rfl
    simp only [Option.map_some, Option.bind_eq_bind, Option.bind_some, Option.pure_def,
      ← List.map_flatten, List.filterMap_map, List.countP_map, hsample, hfailed,
      Prod.map_apply, List.map_filterMap, Function.comp_def, id]

end ElCarro.Monitoring
