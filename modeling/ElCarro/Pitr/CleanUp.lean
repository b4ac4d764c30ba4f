import ElCarro.Pitr.SimpleStore

/-! # What a clean-up leaves in the catalog

A clean-up goes over the entries of the catalog in any order. An expired log loses its replica
and then its hash record, and leaves the catalog if both deletions report success. The store of
the records is asked to delete the path of the log as it is, so that the record itself may stay
behind.
-/

namespace ElCarro.PitrStore

open Pitr GoTime

def metadataStorePath : String := "catalog"

/-- What becomes of the two deletions for a log. -/
structure Answers where
  replica : CallResult
  record : CallResult
  deriving DecidableEq

/-- What happens to a log: which of the two deletions are carried out for it, and whether they
report success. -/
structure Visit (β : Type*) where
  key : String
  entry : LogMetadataEntry
  before : Storage β
  replica : Option Bool
  record : Option Bool
  after : Storage β

/-- The entries of a catalog, in an order that `range` may go over them in. -/
def Ranges (metadata : LogMetadata) (entries : List (String × LogMetadataEntry)) : Prop :=
  (entries.map Prod.fst).Nodup ∧
    ∀ key entry, (key, entry) ∈ entries ↔ metadata.lookup key = some entry

section Code

variable {β : Type*} (cwd : List (List Char)) (expire : Time) (c : StorageClient)
  (hashStore : SimpleStore)

/-- `deleteLog`: the deletions that it carries out; it succeeds if the second one does. -/
def deleteLog (st : Storage β) (entry : LogMetadataEntry) (a : Answers) :
    Option Bool × Option Bool × Storage β :=
  match checkDateDir expire entry.replicaPath with
  | .error _ => (none, none, st)
  | .ok _ =>
    let replica := c.tryDelete cwd st entry.replicaPath a.replica
    if replica.2 then
      let record := hashStore.delete cwd replica.1 entry.srcPath a.record
      (some true, some record.2, record.1)
    else (some false, none, replica.1)

/-- One round of the loop. -/
def visit (st : Storage β) (key : String) (entry : LogMetadataEntry) (a : Answers) : Visit β :=
  if entry.nextTime < expire then
    let deletion := deleteLog cwd expire c hashStore st entry a
    ⟨key, entry, st, deletion.1, deletion.2.1, deletion.2.2⟩
  else ⟨key, entry, st, none, none, st⟩

def visits (answers : String → Answers) :
    Storage β → List (String × LogMetadataEntry) → List (Visit β)
  | _, [] => []
  | st, (key, entry) :: entries =>
    let v := visit cwd expire c hashStore st key entry (answers key)
    v :: visits answers v.after entries

/-- The catalog is made of the entries whose log is not deleted. -/
def addKept (newMetadata : LogMetadata) (v : Visit β) : LogMetadata :=
  if v.record = some true then newMetadata else newMetadata.insert v.key v.entry

/-- What a clean-up reads, does and writes. -/
structure CleanUp (β : Type*) where
  metadata : Option LogMetadata
  visits : List (Visit β)
  newMetadata : Option LogMetadata
  st : Storage β
  ok : Bool

/-- `cleanUpLogs`. -/
def cleanUpLogs (codec : Codec LogMetadata β) (metadataStore : SimpleStore) (now : Time)
    (retentionDays : Int) (readErr : Bool) (entries : List (String × LogMetadataEntry))
    (answers : String → Answers) (written : WriteResult β) (st : Storage β) : CleanUp β :=
  let read := if readErr then none
    else metadataStore.read codec cwd st metadataStorePath codec.zero
  match read with
  | none => ⟨none, [], none, st, false⟩
  | some metadata =>
    let expire := expireTime now retentionDays
    let vs := visits cwd expire c hashStore answers st entries
    let newMetadata := vs.foldl addKept ∅
    let st := (vs.getLast?.map Visit.after).getD st
    let write := metadataStore.write codec cwd st metadataStorePath newMetadata written
    ⟨some metadata, vs, some newMetadata, write.1, write.2⟩

end Code

section Property

variable {β : Type*} (cwd : List (List Char)) (expire : Time) (c : StorageClient)
  (hashStore : SimpleStore)

/-- Replica and hash record were deleted successfully: both calls report success, and neither object
is there any more. -/
structure Deleted (v : Visit β) : Prop where
  replica : v.replica = some true
  replica_gone : c.read cwd v.after v.entry.replicaPath = none
  record : v.record = some true
  record_gone : hashStore.c.read cwd v.after (hashStore.dataDir ++ v.entry.srcPath) = none

/-- Only replicas of expired logs are deleted, and the new catalog is the old one without the logs
whose replica and hash record were deleted successfully. -/
structure CleansUp (o : CleanUp β) : Prop where
  only_expired : ∀ v ∈ o.visits, v.replica ≠ none →
    v.entry.nextTime < expire ∧
      ∃ t, parseDateDir (dirBase v.entry.replicaPath) = some t ∧ t < expire
  catalog : ∀ metadata newMetadata, o.metadata = some metadata → o.newMetadata = some newMetadata →
    ∀ key entry, newMetadata.lookup key = some entry ↔
      metadata.lookup key = some entry ∧ ¬ ∃ v ∈ o.visits, v.key = key ∧ Deleted cwd c hashStore v

/-- Both deletions are carried out for a log, and the storage reports success. -/
structure Called (st : Storage β) (entry : LogMetadataEntry) (a : Answers) : Prop where
  expired : Expired expire entry
  answers : a = ⟨.ok, .ok⟩
  replica : (c.delete cwd st entry.replicaPath true).2 = true
  record : (hashStore.c.delete cwd (c.delete cwd st entry.replicaPath true).1 entry.srcPath
    true).2 = true

/-- There is a hash record of the log, at a place that the path of the log by itself does not
name. -/
structure Misses (st : Storage β) (entry : LogMetadataEntry) : Prop where
  stored : hashStore.c.read cwd (c.delete cwd st entry.replicaPath true).1
    (hashStore.dataDir ++ entry.srcPath) ≠ none
  elsewhere : hashStore.c.locate cwd entry.srcPath ≠
    hashStore.c.locate cwd (hashStore.dataDir ++ entry.srcPath)

end Property

section Visits

variable {β : Type*} {cwd : List (List Char)} {expire : Time} {c : StorageClient}
  {hashStore : SimpleStore} {st : Storage β} {key : String} {entry : LogMetadataEntry} {a : Answers}
  {answers : String → Answers} {entries : List (String × LogMetadataEntry)} {v : Visit β}

theorem visit_of_called (h : Called cwd expire c hashStore st entry a) :
    visit cwd expire c hashStore st key entry a =
      ⟨key, entry, st, some true, some true,
        (hashStore.c.delete cwd (c.delete cwd st entry.replicaPath true).1 entry.srcPath
          true).1⟩ := by
  obtain ⟨hexpired, rfl, hreplica, hrecord⟩ := h
  unfold visit deleteLog SimpleStore.delete StorageClient.tryDelete
  rw [if_pos hexpired.1, hexpired.2]
  dsimp only
  rw [if_pos hreplica, hrecord]

/-- A log leaves the catalog exactly if both deletions report success. -/
theorem visit_record_iff :
    (visit cwd expire c hashStore st key entry a).record = some true ↔
      Called cwd expire c hashStore st entry a := by
  constructor
  · intro h
    unfold visit at h
    split at h
    · next htime =>
      dsimp only at h
      unfold deleteLog at h
      split at h
      · cases h
      · next hdate =>
        dsimp only at h
        split at h
        · next hreplica =>
          obtain ⟨hr, hreplica⟩ := tryDelete_succeeded hreplica
          obtain ⟨hr', hrecord⟩ := tryDelete_succeeded (Option.some.inj h)
          obtain ⟨r, r'⟩ := a
          cases hr
          cases hr'
          exact ⟨⟨htime, hdate⟩, rfl, hreplica, hrecord⟩
        · cases h
    · cases h
  · intro h
    rw [visit_of_called h]

theorem checkDateDir_eq_ok {replicaPath : String} {u : Unit}
    (h : checkDateDir expire replicaPath = .ok u) :
    ∃ t, parseDateDir (dirBase replicaPath) = some t ∧ t < expire := by
  unfold checkDateDir at h
  split at h
  · cases h
  · next t ht =>
    split at h
    · next hlt => exact ⟨t, ht, hlt⟩
    · cases h

theorem expired_of_visit_replica
    (h : (visit cwd expire c hashStore st key entry a).replica ≠ none) :
    entry.nextTime < expire ∧
      ∃ t, parseDateDir (dirBase entry.replicaPath) = some t ∧ t < expire := by
  unfold visit at h
  split at h
  · next htime =>
    dsimp only at h
    unfold deleteLog at h
    split at h
    · exact absurd rfl h
    · next hdate => exact ⟨htime, checkDateDir_eq_ok hdate⟩
  · exact absurd rfl h

@[simp] theorem visit_key : (visit cwd expire c hashStore st key entry a).key = key := by
  unfold visit
  split
  · rfl
  · rfl

@[simp] theorem visit_entry : (visit cwd expire c hashStore st key entry a).entry = entry := by
  unfold visit
  split
  · rfl
  · rfl

@[simp] theorem visit_before : (visit cwd expire c hashStore st key entry a).before = st := by
  unfold visit
  split
  · rfl
  · rfl

section Read

variable {c' : StorageClient} {path path' : String}

theorem read_delete_self (h : c.locate cwd path' = c.locate cwd path) :
    c.read cwd (c.delete cwd st path true).1 path' = none := by
  unfold StorageClient.read
  cases hplace : c.locate cwd path' with
  | none => rfl
  | some place =>
    rw [Option.bind_some]
    exact content_delete_self (h.symm.trans hplace)

theorem read_delete_of_ne (h : c.locate cwd path ≠ c.locate cwd path') :
    c.read cwd (c.delete cwd st path true).1 path' = c.read cwd st path' := by
  unfold StorageClient.read
  cases hplace : c.locate cwd path' with
  | none => rfl
  | some place =>
    rw [Option.bind_some, Option.bind_some]
    exact content_delete_of_ne (hplace ▸ h)

theorem read_delete_of_none (h : c'.read cwd st path' = none) :
    c'.read cwd (c.delete cwd st path true).1 path' = none := by
  unfold StorageClient.read at h ⊢
  cases hplace : c'.locate cwd path' with
  | none => rfl
  | some place =>
    rw [hplace, Option.bind_some] at h
    rw [Option.bind_some, Option.eq_none_iff_forall_ne_some]
    intro b hb
    rw [content_of_content_delete hb] at h
    cases h

end Read

/-- Both objects are gone if the deletions report success and do not miss the record. -/
theorem deleted_visit_iff :
    Deleted cwd c hashStore (visit cwd expire c hashStore st key entry a) ↔
      Called cwd expire c hashStore st entry a ∧ ¬ Misses cwd c hashStore st entry := by
  constructor
  · intro h
    have hcalled := visit_record_iff.mp h.record
    refine ⟨hcalled, ?_⟩
    rintro ⟨hstored, helsewhere⟩
    have hgone := h.record_gone
    rw [visit_of_called hcalled] at hgone
    exact hstored ((read_delete_of_ne helsewhere).symm.trans hgone)
  · rintro ⟨hcalled, hmisses⟩
    rw [visit_of_called hcalled]
    refine ⟨rfl, read_delete_of_none (read_delete_self rfl), rfl, ?_⟩
    by_cases hplace : hashStore.c.locate cwd entry.srcPath =
        hashStore.c.locate cwd (hashStore.dataDir ++ entry.srcPath)
    · exact read_delete_self hplace.symm
    · apply read_delete_of_none
      by_contra hstored
      exact hmisses ⟨hstored, hplace⟩

theorem visits_map : (visits cwd expire c hashStore answers st entries).map
    (fun v => (v.key, v.entry)) = entries := by
  induction entries generalizing st with
  | nil => rfl
  | cons e entries ih =>
    rw [visits, List.map_cons, ih, visit_key, visit_entry]

theorem eq_visit_of_mem (h : v ∈ visits cwd expire c hashStore answers st entries) :
    v = visit cwd expire c hashStore v.before v.key v.entry (answers v.key) := by
  induction entries generalizing st with
  | nil => cases h
  | cons e entries ih =>
    rw [visits] at h
    rcases List.mem_cons.mp h with rfl | h
    · rw [visit_key, visit_entry, visit_before]
    · exact ih h

end Visits

section Catalog

variable {β : Type*} {vs : List (Visit β)} {v v' : Visit β}

/-- The new catalog has the entries that were there before, and those of the logs that are kept. -/
theorem lookup_foldl_addKept {newMetadata : LogMetadata} {key : String} {entry : LogMetadataEntry}
    (hnodup : (vs.map Visit.key).Nodup) (hnew : ∀ v ∈ vs, v.key ∉ newMetadata) :
    (vs.foldl addKept newMetadata).lookup key = some entry ↔
      newMetadata.lookup key = some entry ∨
        ∃ v ∈ vs, v.key = key ∧ v.entry = entry ∧ v.record ≠ some true := by
  induction vs generalizing newMetadata with
  | nil => simp
  | cons v vs ih =>
    rw [List.map_cons, List.nodup_cons] at hnodup
    rw [List.forall_mem_cons] at hnew
    rw [List.foldl_cons, List.exists_mem_cons_iff]
    by_cases hrecord : v.record = some true
    · have hadd : addKept newMetadata v = newMetadata := if_pos hrecord
      rw [hadd, ih hnodup.2 hnew.2]
      simp [hrecord]
    · have hadd : addKept newMetadata v = newMetadata.insert v.key v.entry := if_neg hrecord
      rw [hadd, ih hnodup.2]
      · by_cases hkey : key = v.key
        · subst hkey
          have hnone : newMetadata.lookup v.key = none := Finmap.lookup_eq_none.mpr hnew.1
          rw [Finmap.lookup_insert, hnone]
          simp [hrecord]
        · rw [Finmap.lookup_insert_of_ne _ hkey]
          simp [Ne.symm hkey]
      · intro v' hv' hmem
        rcases Finmap.mem_insert.mp hmem with heq | hmem
        · exact hnodup.1 (heq ▸ List.mem_map_of_mem hv')
        · exact hnew.2 v' hv' hmem

variable {cwd : List (List Char)} {expire : Time} {c : StorageClient} {hashStore : SimpleStore}
  {st : Storage β} {answers : String → Answers} {entries : List (String × LogMetadataEntry)}
  {metadata : LogMetadata}

/-- The visits of a clean-up: one for each entry of the catalog. -/
structure Covers (metadata : LogMetadata) (vs : List (Visit β)) : Prop where
  nodup : (vs.map Visit.key).Nodup
  lookup_of_mem : ∀ v ∈ vs, metadata.lookup v.key = some v.entry
  exists_of_lookup : ∀ key entry, metadata.lookup key = some entry →
    ∃ v ∈ vs, v.key = key ∧ v.entry = entry

theorem covers_visits (h : Ranges metadata entries) :
    Covers metadata (visits cwd expire c hashStore answers st entries) := by
  have hmap : (visits cwd expire c hashStore answers st entries).map
      (fun v => (v.key, v.entry)) = entries := visits_map
  refine ⟨?_, ?_, ?_⟩
  · have hkeys := h.1
    rw [← hmap, List.map_map] at hkeys
    exact hkeys
  · intro v hv
    have hmem : (v.key, v.entry) ∈ entries := by
      rw [← hmap]
      exact List.mem_map_of_mem hv
    exact (h.2 _ _).mp hmem
  · intro key entry hlookup
    have hmem := (h.2 key entry).mpr hlookup
    rw [← hmap] at hmem
    obtain ⟨v, hv, heq⟩ := List.mem_map.mp hmem
    exact ⟨v, hv, congrArg Prod.fst heq, congrArg Prod.snd heq⟩

theorem Covers.unique (h : Covers metadata vs) (hv : v ∈ vs) (hv' : v' ∈ vs)
    (hkey : v.key = v'.key) : v = v' :=
  List.inj_on_of_nodup_map h.nodup hv hv' hkey

theorem Covers.lookup_iff (h : Covers metadata vs) {key : String} {entry : LogMetadataEntry} :
    (vs.foldl addKept ∅).lookup key = some entry ↔
      ∃ v ∈ vs, v.key = key ∧ v.entry = entry ∧ v.record ≠ some true := by
  rw [lookup_foldl_addKept h.nodup fun _ _ => Finmap.notMem_empty]
  simp

/-- The new catalog tells which logs were deleted exactly if no deletion misses the record. -/
theorem catalog_iff (hcovers : Covers metadata vs)
    (hvisit : ∀ v ∈ vs, v = visit cwd expire c hashStore v.before v.key v.entry (answers v.key)) :
    (∀ key entry, (vs.foldl addKept ∅).lookup key = some entry ↔
      metadata.lookup key = some entry ∧ ¬ ∃ v ∈ vs, v.key = key ∧ Deleted cwd c hashStore v) ↔
      ∀ v ∈ vs, Called cwd expire c hashStore v.before v.entry (answers v.key) →
        ¬ Misses cwd c hashStore v.before v.entry := by
  have hrecord : ∀ v ∈ vs, v.record = some true ↔
      Called cwd expire c hashStore v.before v.entry (answers v.key) := by
    intro v hv
    rw [hvisit v hv, visit_record_iff, visit_before, visit_entry, visit_key]
  have hdeleted : ∀ v ∈ vs, Deleted cwd c hashStore v ↔
      Called cwd expire c hashStore v.before v.entry (answers v.key) ∧
        ¬ Misses cwd c hashStore v.before v.entry := by
    intro v hv
    rw [hvisit v hv, deleted_visit_iff, visit_before, visit_entry, visit_key]
  constructor
  · intro hcatalog v hv hcalled hmisses
    have hnot : ¬ ∃ v' ∈ vs, v'.key = v.key ∧ Deleted cwd c hashStore v' := by
      rintro ⟨v', hv', hkey, hgone⟩
      obtain rfl := hcovers.unique hv' hv hkey
      exact ((hdeleted v' hv').mp hgone).2 hmisses
    have hkept := (hcatalog v.key v.entry).mpr ⟨hcovers.lookup_of_mem v hv, hnot⟩
    obtain ⟨v', hv', hkey, -, hne⟩ := hcovers.lookup_iff.mp hkept
    obtain rfl := hcovers.unique hv' hv hkey
    exact hne ((hrecord v' hv').mpr hcalled)
  · intro hmisses key entry
    rw [hcovers.lookup_iff]
    constructor
    · rintro ⟨v, hv, rfl, rfl, hkept⟩
      refine ⟨hcovers.lookup_of_mem v hv, ?_⟩
      rintro ⟨v', hv', hkey, hgone⟩
      obtain rfl := hcovers.unique hv' hv hkey
      exact hkept hgone.record
    · rintro ⟨hlookup, hnot⟩
      obtain ⟨v, hv, rfl, rfl⟩ := hcovers.exists_of_lookup key entry hlookup
      refine ⟨v, hv, rfl, rfl, ?_⟩
      intro htrue
      have hcalled := (hrecord v hv).mp htrue
      exact hnot ⟨v, hv, rfl, (hdeleted v hv).mpr ⟨hcalled, hmisses v hv hcalled⟩⟩

end Catalog

section Samples

/-- The codec of catalogs: entries are added to those of the value that they are decoded over. -/
def gobCatalog : Codec LogMetadata (Option Object) where
  encode metadata := some (.catalog metadata)
  decode
    | data, some (.catalog metadata) => some (metadata ∪ data)
    | _, _ => none
  zero := ∅
  eof := none
  decode_encode _ := congrArg some Finmap.union_empty
  decode_eof _ := rfl

/-- A log of the first of September. -/
def oldLog : LogMetadataEntry :=
  ⟨⟨"KZF/Mg==", "gs://pitr/archivelog/2021_09_01/1_1.arc", 0⟩, "/u03/archivelog/2021_09_01/1_1.arc",
    "1", "2", date 2021 9 1, date 2021 9 1 + hour, "", "1", "2", "1"⟩

def oldCatalog : LogMetadata := (∅ : LogMetadata).insert "1-2-1" oldLog

/-- The storage with the replica of the log, its hash record and the catalog. -/
def withOldLog (hashDir metadataDir : String) : Storage (Option Object) :=
  let hashStore := newSimpleStore hashDir
  let st := (StorageClient.gcs.write [] ⟨∅, ∅⟩ oldLog.replicaPath (some (.log "KZF/Mg=="))).1
  let st := (hashStore.c.write [] st (hashStore.dataDir ++ oldLog.srcPath)
    (some (.hash oldLog.toLogHashEntry))).1
  ((newSimpleStore metadataDir).write gobCatalog [] st metadataStorePath oldCatalog .ok).1

/-- The clean-up on the third of September, with logs kept for a day, where nothing fails. -/
def cleanOldLog (hashDir metadataDir : String) : CleanUp (Option Object) :=
  cleanUpLogs [] .gcs (newSimpleStore hashDir) gobCatalog (newSimpleStore metadataDir)
    (date 2021 9 3 + 12 * hour) 1 false [("1-2-1", oldLog)] (fun _ => ⟨.ok, .ok⟩) .ok
    (withOldLog hashDir metadataDir)

theorem ranges_oldCatalog : Ranges oldCatalog [("1-2-1", oldLog)] := by
  refine ⟨by simp, ?_⟩
  intro key entry
  unfold oldCatalog
  by_cases hkey : key = "1-2-1"
  · subst hkey
    rw [Finmap.lookup_insert]
    simp [eq_comm]
  · rw [Finmap.lookup_insert_of_ne _ hkey]
    simp [hkey]

/-- The clean-up looks at the log once. -/
theorem cleanOldLog_visits {hashDir metadataDir : String} {metadata : LogMetadata}
    (h : (cleanOldLog hashDir metadataDir).metadata = some metadata) :
    (cleanOldLog hashDir metadataDir).visits =
      [visit [] (expireTime (date 2021 9 3 + 12 * hour) 1) .gcs (newSimpleStore hashDir)
        (withOldLog hashDir metadataDir) "1-2-1" oldLog ⟨.ok, .ok⟩] := by
  unfold cleanOldLog cleanUpLogs at h ⊢
  dsimp only at h ⊢
  split at h
  · cases h
  · rfl

end Samples

end ElCarro.PitrStore
