import ElCarro.Lib.Runs
import ElCarro.Pitr.Agent

/-! # Replicas named by the catalog

As long as the retention loop deletes no replica, every stored record and every
copy of the catalog in memory names replicas that exist. A deletion is never
followed up: the hash store refuses to delete the record of a log on cloud
storage, so the entry of the deleted replica is written back.
-/

namespace ElCarro.Pitr

open GoTime K8s Api

/-- Every entry with a replica path names an object that exists. -/
def Backed (objects : Objects) (metadata : LogMetadata) : Prop :=
  ∀ key entry, metadata.lookup key = some entry → entry.replicaPath ≠ "" →
    objects.Exists entry.replicaPath

def CatalogBacked (c : Config) (s : State) : Prop :=
  ∀ metadata, s.catalog c = some metadata → Backed s.objects metadata

/-- The step deletes the replica of an expired log. -/
def deletesReplica (s : State) : Event → Bool
  | .cleanVisit key r =>
    match s.holder with
    | .cleaning expire todo _ none =>
      match todo.lookup key with
      | some entry => Expired expire entry ∧ r.Effective
      | none => false
    | _ => false
  | _ => false

def RetainsReplica (s : State) (e : Event) : Prop := deletesReplica s e = false

instance (s : State) (e : Event) : Decidable (RetainsReplica s e) :=
  inferInstanceAs (Decidable (_ = _))

section Backing

variable {objects objects' : Objects} {metadata : LogMetadata} {key : String}
  {entry : LogMetadataEntry}

def Object.Backed (objects : Objects) : Object → Prop
  | .log _ => True
  | .hash entry => entry.replicaPath ≠ "" → objects.Exists entry.replicaPath
  | .catalog metadata => Pitr.Backed objects metadata

def Holder.Backed (objects : Objects) : Holder → Prop
  | .idle => True
  | .updating _ metadata => Pitr.Backed objects metadata
  | .cleaning _ todo kept pending =>
    Pitr.Backed objects todo ∧ Pitr.Backed objects kept ∧ pending = none

theorem backed_empty : Backed objects ∅ := by
  intro key entry h
  rw [Finmap.lookup_empty] at h
  cases h

theorem Backed.insert (h : Backed objects metadata)
    (he : entry.replicaPath ≠ "" → objects.Exists entry.replicaPath) :
    Backed objects (metadata.insert key entry) := by
  intro key' entry' hl hne
  by_cases hk : key' = key
  · subst hk
    rw [Finmap.lookup_insert] at hl
    obtain rfl := Option.some.inj hl
    exact he hne
  · rw [Finmap.lookup_insert_of_ne _ hk] at hl
    exact h key' entry' hl hne

theorem Backed.erase (h : Backed objects metadata) : Backed objects (metadata.erase key) := by
  intro key' entry' hl hne
  by_cases hk : key' = key
  · subst hk
    rw [Finmap.lookup_erase] at hl
    cases hl
  · rw [Finmap.lookup_erase_ne hk] at hl
    exact h key' entry' hl hne

variable (hgrow : ∀ url, objects.Exists url → objects'.Exists url)

include hgrow

theorem Backed.mono (h : Backed objects metadata) : Backed objects' metadata :=
  fun key entry hl hne => hgrow _ (h key entry hl hne)

theorem Object.Backed.mono {o : Object} (h : o.Backed objects) : o.Backed objects' := by
  cases o with
  | log => trivial
  | hash entry => exact fun hne => hgrow _ (h hne)
  | catalog metadata => exact Pitr.Backed.mono hgrow h

theorem Holder.Backed.mono {holder : Holder} (h : holder.Backed objects) :
    holder.Backed objects' := by
  cases holder with
  | idle => trivial
  | updating rows metadata => exact Pitr.Backed.mono hgrow h
  | cleaning expire todo kept pending =>
    exact ⟨Pitr.Backed.mono hgrow h.1, Pitr.Backed.mono hgrow h.2.1, h.2.2⟩

end Backing

/-- Everything that can end up in the catalog names replicas that exist. -/
structure Sound (s : State) : Prop where
  objects : ∀ url o, s.objects.at? url = some o → o.Backed s.objects
  workers : ∀ w sd hash, s.workers w = .recording sd hash → s.objects.Exists sd.dest
  holder : s.holder.Backed s.objects

namespace Sound

variable {c : Config} {s t : State}

theorem catalogBacked (h : Sound s) : CatalogBacked c s := by
  intro metadata hm
  exact h.objects _ _ (readCatalog_eq_some hm)

theorem empty : Sound .empty := by
  refine ⟨?_, ?_, trivial⟩
  · intro url o h
    unfold Objects.at? at h
    split at h
    · exact absurd h (by simp [State.empty])
    · cases h
  · intro w sd hash h
    cases h

theorem write (h : Sound s) {url : String} {o : Object} {r : CallResult}
    (ho : o.Backed s.objects) : Sound { s with objects := (s.objects.write url o r).1 } := by
  have hgrow : ∀ url', s.objects.Exists url' → (s.objects.write url o r).1.Exists url' :=
    fun _ => exists_write_of_exists
  refine ⟨?_, ?_, h.holder.mono hgrow⟩
  · intro url' o' ho'
    rcases at?_write ho' with rfl | hold
    · exact ho.mono hgrow
    · exact (h.objects url' o' hold).mono hgrow
  · intro w sd hash hw
    exact hgrow _ (h.workers w sd hash hw)

theorem storeWrite (h : Sound s) (store : SimpleStore) {path : String} {o : Object}
    {r : CallResult} (ho : o.Backed s.objects) :
    Sound { s with objects := (store.write s.objects path o r).1 } := by
  unfold SimpleStore.write
  exact h.write ho

theorem setWorker (h : Sound s) {w : Nat} {worker : Worker}
    (hw : ∀ sd hash, worker = .recording sd hash → s.objects.Exists sd.dest) :
    Sound (setWorker s w worker) := by
  refine ⟨h.objects, ?_, h.holder⟩
  intro w' sd hash hw'
  by_cases hne : w' = w
  · subst hne
    exact hw sd hash (by simpa [Pitr.setWorker] using hw')
  · exact h.workers w' sd hash (by simpa [Pitr.setWorker, hne] using hw')

theorem setHolder (h : Sound s) {holder : Holder} (hh : holder.Backed s.objects) :
    Sound { s with holder } :=
  ⟨h.objects, h.workers, hh⟩

theorem syncStart {w : Nat} {src sub : String} {read : Bool} {mtime : Option Time} (h : Sound s)
    (hs : syncStart c s w src sub read mtime = some t) : Sound t := by
  unfold Pitr.syncStart at hs
  split at hs
  · split at hs
    · obtain rfl := Option.some.inj hs
      exact h.setWorker (by simp)
    · obtain rfl := Option.some.inj hs
      exact h
  · cases hs

theorem syncCopy {w : Nat} {read : Bool} {crc32c : String} {r : CallResult} (h : Sound s)
    (hs : syncCopy s w read crc32c r = some t) : Sound t := by
  unfold Pitr.syncCopy at hs
  split at hs
  · next sd _ =>
    split at hs
    · obtain rfl := Option.some.inj hs
      have hlog : (Object.log crc32c).Backed s.objects := trivial
      refine (h.write hlog).setWorker ?_
      intro sd' hash hw
      split at hw <;> cases hw
    · obtain rfl := Option.some.inj hs
      exact h.setWorker (by simp)
  · cases hs

theorem exists_of_validateHash {dest : String} {srcHash : Option String} {attrs : Bool}
    {hash : String} (hv : validateHash s dest srcHash attrs = some hash) :
    s.objects.Exists dest := by
  unfold validateHash at hv
  split at hv
  · next hat =>
    split at hat
    · simp [Objects.Exists, hat]
    · cases hat
  · cases hv

theorem syncValidate {w : Nat} {srcHash : Option String} {attrs : Bool} (h : Sound s)
    (hs : syncValidate s w srcHash attrs = some t) : Sound t := by
  unfold Pitr.syncValidate at hs
  split at hs
  · next sd _ =>
    split at hs
    · next hash hv =>
      obtain rfl := Option.some.inj hs
      refine h.setWorker ?_
      intro sd' hash' hw
      cases hw
      exact exists_of_validateHash hv
    · obtain rfl := Option.some.inj hs
      exact h.setWorker (by simp)
  · cases hs

theorem syncRecord {w : Nat} {mtime : Option Time} {r : CallResult} (h : Sound s)
    (hs : syncRecord c s w mtime r = some t) : Sound t := by
  unfold Pitr.syncRecord at hs
  split at hs
  · next sd hash hw =>
    obtain rfl := Option.some.inj hs
    have hdest := h.workers w sd hash hw
    have hrec : (Object.hash ⟨hash, sd.dest, mtime.getD 0⟩).Backed s.objects := fun _ => hdest
    exact (h.storeWrite c.hashStore hrec).setWorker (by simp)
  · cases hs

theorem updateStart {rows : List (Option Row)} {reads : List Bool} (h : Sound s)
    (hs : updateStart c s rows reads = some t) : Sound t := by
  unfold Pitr.updateStart at hs
  split at hs
  · obtain rfl := Option.some.inj hs
    refine h.setHolder ?_
    unfold Holder.Backed
    dsimp only
    split
    · cases hm : s.catalog c with
      | none => exact backed_empty
      | some metadata => exact h.catalogBacked metadata hm
    · exact backed_empty
  · cases hs

theorem addRow (h : Sound s) {row : Option Row} {read : Bool} {metadata : LogMetadata}
    (hm : Backed s.objects metadata) : Backed s.objects (addRow c s row read metadata) := by
  unfold Pitr.addRow
  split
  · exact hm
  · next key entry hrow =>
    split
    · exact hm
    · split
      · next hash hread =>
        refine hm.insert ?_
        split at hread
        · exact h.objects _ _ (readHash_eq_some hread)
        · cases hread
      · -- a row that found no record has no replica path
        obtain ⟨row, -, hrow⟩ := Option.bind_eq_some_iff.mp hrow
        obtain ⟨entry', hentry, heq⟩ := Option.map_eq_some_iff.mp hrow
        cases heq
        refine hm.insert fun hne => absurd ?_ hne
        unfold rowEntry at hentry
        obtain ⟨ft, -, hentry⟩ := Option.bind_eq_some_iff.mp hentry
        obtain ⟨nt, -, hentry⟩ := Option.bind_eq_some_iff.mp hentry
        obtain rfl := Option.some.inj hentry
        rfl

theorem updateRow {read : Bool} (h : Sound s) (hs : updateRow c s read = some t) : Sound t := by
  unfold Pitr.updateRow at hs
  split at hs
  · next row rows metadata hh =>
    obtain rfl := Option.some.inj hs
    have hm : Backed s.objects metadata := by
      have := h.holder
      rwa [hh] at this
    exact h.setHolder (h.addRow hm)
  · cases hs

theorem updateWrite {r : CallResult} (h : Sound s) (hs : updateWrite c s r = some t) :
    Sound t := by
  unfold Pitr.updateWrite at hs
  split at hs
  · next metadata hh =>
    obtain rfl := Option.some.inj hs
    have hm : Backed s.objects metadata := by
      have := h.holder
      rwa [hh] at this
    have hstored : Sound { s with objects :=
        (c.metadataStore.write s.objects metadataStorePath (.catalog metadata) r).1 } :=
      h.storeWrite c.metadataStore hm
    exact ⟨hstored.objects, hstored.workers, trivial⟩
  · cases hs

theorem cleanStart {now : Time} {read : Bool} (h : Sound s)
    (hs : cleanStart c s now read = some t) : Sound t := by
  unfold Pitr.cleanStart at hs
  split at hs
  · split at hs
    · next metadata hread =>
      obtain rfl := Option.some.inj hs
      split at hread
      · exact h.setHolder ⟨h.catalogBacked metadata hread, backed_empty, rfl⟩
      · cases hread
    · obtain rfl := Option.some.inj hs
      exact h
  · cases hs

theorem cleanVisit {key : String} {r : CallResult} (h : Sound s)
    (hok : RetainsReplica s (.cleanVisit key r)) (hs : cleanVisit s key r = some t) :
    Sound t := by
  unfold Pitr.cleanVisit at hs
  split at hs
  · next expire todo kept hh =>
    have hb := h.holder
    rw [hh] at hb
    obtain ⟨htodo, hkept, -⟩ := hb
    split at hs
    · cases hs
    · next entry hl =>
      have hkeep : (Holder.cleaning expire (todo.erase key) (kept.insert key entry) none).Backed
          s.objects :=
        ⟨htodo.erase, hkept.insert (htodo key entry hl), rfl⟩
      split at hs
      · next hexp =>
        have hr : ¬ r.Effective := by
          simp only [RetainsReplica, deletesReplica, hh, hl, decide_eq_false_iff_not] at hok
          exact fun hr => hok ⟨hexp, hr⟩
        -- the call fails, so nothing is deleted and the entry is kept
        have hobj : (s.objects.delete entry.replicaPath r).1 = s.objects :=
          delete_of_not_effective hr
        have hdel : (s.objects.delete entry.replicaPath r).2 = false := by
          unfold Objects.delete
          split
          · rfl
          · obtain rfl : r = .failed := by simpa [CallResult.Effective] using hr
            rfl
        dsimp only at hs
        rw [hdel, hobj] at hs
        obtain rfl := Option.some.inj hs
        exact h.setHolder hkeep
      · obtain rfl := Option.some.inj hs
        exact h.setHolder hkeep
  · cases hs

theorem not_cleanRecord {r : CallResult} (h : Sound s) : cleanRecord c s r = none := by
  unfold Pitr.cleanRecord
  split
  · next hh =>
    have hb := h.holder
    rw [hh] at hb
    cases hb.2.2
  · rfl

theorem cleanWrite {r : CallResult} (h : Sound s) (hs : cleanWrite c s r = some t) :
    Sound t := by
  unfold Pitr.cleanWrite at hs
  split at hs
  · next kept hh =>
    have hb := h.holder
    rw [hh] at hb
    split at hs
    · obtain rfl := Option.some.inj hs
      have hstored : Sound { s with objects :=
          (c.metadataStore.write s.objects metadataStorePath (.catalog kept) r).1 } :=
        h.storeWrite c.metadataStore hb.2.1
      exact ⟨hstored.objects, hstored.workers, trivial⟩
    · cases hs
  · cases hs

theorem step {e : Event} (h : Sound s) (hok : RetainsReplica s e) (hs : step c s e = some t) :
    Sound t := by
  cases e with
  | syncStart => exact h.syncStart hs
  | syncCopy => exact h.syncCopy hs
  | syncValidate => exact h.syncValidate hs
  | syncRecord => exact h.syncRecord hs
  | updateStart => exact h.updateStart hs
  | updateRow => exact h.updateRow hs
  | updateWrite => exact h.updateWrite hs
  | cleanStart => exact h.cleanStart hs
  | cleanVisit => exact h.cleanVisit hok hs
  | cleanRecord =>
    have hs : Pitr.cleanRecord c s _ = some t := hs
    rw [h.not_cleanRecord] at hs
    cases hs
  | cleanWrite => exact h.cleanWrite hs
  | restart =>
    obtain rfl := Option.some.inj hs
    exact ⟨h.objects, by simp, trivial⟩

end Sound

theorem Expired.replicaPath_ne {expire : Time} {entry : LogMetadataEntry}
    (h : Expired expire entry) : entry.replicaPath ≠ "" := by
  intro hne
  have hdir := h.2
  rw [hne] at hdir
  cases hdir

/-- A deletion breaks the catalog at once: the stored entry still names the replica. -/
theorem not_catalogBacked_of_deletesReplica {c : Config} {s t : State} {key : String}
    {r : CallResult} {expire : Time} {todo kept metadata : LogMetadata}
    (hh : s.holder = .cleaning expire todo kept none)
    (hsub : todo.lookup key = metadata.lookup key)
    (hd : deletesReplica s (.cleanVisit key r) = true)
    (hs : step c s (.cleanVisit key r) = some t) (hcat : t.catalog c = some metadata) :
    ¬ CatalogBacked c t := by
  intro hb
  cases hl : todo.lookup key with
  | none => simp [deletesReplica, hh, hl] at hd
  | some entry =>
    obtain ⟨hexp, hr⟩ : Expired expire entry ∧ r.Effective := by
      simpa [deletesReplica, hh, hl] using hd
    have hobj : t.objects = (s.objects.delete entry.replicaPath r).1 := by
      have hs : cleanVisit s key r = some t := hs
      simp only [cleanVisit, hh, hl, if_pos hexp] at hs
      obtain rfl := Option.some.inj hs
      rfl
    have hex := hb metadata hcat key entry (hsub ▸ hl) hexp.replicaPath_ne
    rw [hobj] at hex
    exact not_exists_delete hr hex

section Example

/-- An agent that can read the times of the log below. -/
def agent : Config where
  dest := "gs://bk/mydb"
  retentionDays := 7
  parseTime
    | "2021-09-13T10:00:00Z" => some (date 2021 9 13 + 10 * hour)
    | "2021-09-13T10:10:00Z" => some (date 2021 9 13 + 10 * hour + 10 * minute)
    | _ => none

def archivedLog : Row :=
  (((∅ : Row).insert "NAME" "/u03/archivelog/2021_09_13/o1_mf_1_1.arc").insert "FIRST_TIME"
    "2021-09-13T10:00:00Z").insert "NEXT_TIME" "2021-09-13T10:10:00Z"

/-- The log is replicated, catalogued and visited by retention; every call succeeds. -/
def oneLog (now : Time) : List Event :=
  [.syncStart 0 "/u03/archivelog/2021_09_13/o1_mf_1_1.arc" "archivelog/2021_09_13/o1_mf_1_1.arc"
      true (some 1),
    .syncCopy 0 true "4e2f" .ok,
    .syncValidate 0 (some "4e2f") true,
    .syncRecord 0 (some 1) .ok,
    .updateStart [some archivedLog] [true],
    .updateRow true,
    .updateWrite .ok,
    .cleanStart now true,
    .cleanVisit "--" .ok]

end Example

end ElCarro.Pitr
