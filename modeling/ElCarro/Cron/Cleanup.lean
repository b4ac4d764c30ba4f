import Mathlib.Data.List.Nodup
import ElCarro.Cron.Isolation
import ElCarro.Pitr.Retention

/-! # Cleaning up the history of children

The cleanup deletes finished children that are too old, and of the others those
beyond the newest few. Two things go wrong in it. A timestamp field that is empty
reads as the zero time, which is older than any limit. And the children that were
deleted are told from the rest by their bare name, although the list holds children
of every namespace.
-/

namespace ElCarro.Cron

open GoTime K8s

section Judgement

variable (lib : Libs) (ca : CronAnything) (retention : ResourceRetention) (now : Time)
  (child : Unstructured)

/-- The timestamp of a child, if its field holds one. -/
def timestampOf : Option Time :=
  match retention.resourceTimestampStrategy with
  | .field (some fieldPath) =>
    match getTimestamp lib fieldPath child with
    | .ok (timestamp, true) => some timestamp
    | _ => none
  | _ => none

/-- Finished, and its timestamp can be looked up; an empty field counts as the zero time. -/
def eligible : Bool :=
  match isFinished lib ca child, getResourceTimestamp lib retention child with
  | .ok true, some (.ok _) => true
  | _, _ => false

/-- Past the age limit. -/
def expired : Bool :=
  match getResourceTimestamp lib retention child with
  | some (.ok timestamp) => decide (∃ limit ∈ retention.historyTimeLimitSeconds,
      timestamp < now ∧ lib.secondsExceed (sub now timestamp) limit)
  | _ => false

/-- A child that takes one of the places of the count limit. -/
def counted : Bool := eligible lib ca retention child && !expired lib retention now child

/-- A child past the age limit, or with `keep` and more children counted before it. -/
def Expendable (keep : Int) (items : List Unstructured) : Prop :=
  ∃ newer older, items = newer ++ child :: older ∧ eligible lib ca retention child ∧
    (expired lib retention now child ∨ ∃ limit ∈ retention.historyCountLimit,
      limit ≤ keep + (newer.filter (counted lib ca retention now)).length)

/-- The children as `sort.Sort` arranges them, newest first. -/
def arrange (children : List Unstructured) : List Unstructured :=
  match timestampCache lib retention children with
  | none => []
  | some cache => lib.sort (less cache) children

end Judgement

section Select

variable {lib : Libs} {ca : CronAnything} {retention : ResourceRetention} {now : Time}
  {child y : Unstructured} {keep : Int} {items rest selected : List Unstructured}

theorem length_counted_cons :
    ((child :: rest).filter (counted lib ca retention now)).length =
      (if counted lib ca retention now child then 1 else 0 : Int) +
        (rest.filter (counted lib ca retention now)).length := by
  rw [List.filter_cons]
  split
  · rw [List.length_cons, Nat.cast_add, add_comm]
    rfl
  · rw [zero_add]

theorem expendable_cons :
    Expendable lib ca retention now y keep (child :: rest) ↔
      (child = y ∧ eligible lib ca retention y ∧ (expired lib retention now y ∨
        ∃ limit ∈ retention.historyCountLimit, limit ≤ keep)) ∨
      Expendable lib ca retention now y
        (keep + if counted lib ca retention now child then 1 else 0) rest := by
  constructor
  · rintro ⟨newer, older, heq, helig, hwhy⟩
    cases newer with
    | nil =>
      obtain ⟨rfl, rfl⟩ := List.cons.inj heq
      exact Or.inl ⟨rfl, helig, by simpa using hwhy⟩
    | cons first newer =>
      obtain ⟨rfl, rfl⟩ := List.cons.inj heq
      refine Or.inr ⟨newer, older, rfl, helig, hwhy.imp_right ?_⟩
      rintro ⟨limit, hl, hle⟩
      rw [length_counted_cons, ← add_assoc] at hle
      exact ⟨limit, hl, hle⟩
  · rintro (⟨rfl, helig, hwhy⟩ | ⟨newer, older, rfl, helig, hwhy⟩)
    · exact ⟨[], rest, rfl, helig, by simpa using hwhy⟩
    · refine ⟨child :: newer, older, rfl, helig, hwhy.imp_right ?_⟩
      rintro ⟨limit, hl, hle⟩
      rw [add_assoc, ← length_counted_cons] at hle
      exact ⟨limit, hl, hle⟩

/-- Once the places are taken, every eligible child is expendable. -/
theorem expendable_of_full (hfull : ∃ limit ∈ retention.historyCountLimit, limit ≤ keep) :
    Expendable lib ca retention now y keep items ↔ y ∈ items ∧ eligible lib ca retention y := by
  constructor
  · rintro ⟨newer, older, rfl, helig, -⟩
    exact ⟨List.mem_append_right _ List.mem_cons_self, helig⟩
  · rintro ⟨hmem, helig⟩
    obtain ⟨newer, older, rfl⟩ := List.append_of_mem hmem
    obtain ⟨limit, hl, hle⟩ := hfull
    exact ⟨newer, older, rfl, helig, Or.inr ⟨limit, hl, by omega⟩⟩

theorem expendable_of_unlimited (hnone : retention.historyCountLimit = none) (keep' : Int) :
    Expendable lib ca retention now y keep items ↔
      Expendable lib ca retention now y keep' items := by
  simp [Expendable, hnone]

/-- One step of the loop: pass over a child, select it, or count it. -/
theorem selectInactive_cons
    (h : selectInactive lib ca retention now keep (child :: rest) = some selected) :
    (eligible lib ca retention child = false ∧
        selectInactive lib ca retention now keep rest = some selected) ∨
      (eligible lib ca retention child = true ∧ (expired lib retention now child = true ∨
          ∃ limit ∈ retention.historyCountLimit, limit ≤ keep) ∧
        ∃ tail, selected = child :: tail ∧
          selectInactive lib ca retention now keep rest = some tail) ∨
      (counted lib ca retention now child = true ∧
        (¬ ∃ limit ∈ retention.historyCountLimit, limit ≤ keep) ∧
        selectInactive lib ca retention now (int32 (keep + 1)) rest = some selected) := by
  unfold selectInactive at h
  split at h
  · next hfin =>
    split at h
    · cases h
    · next err hts => exact Or.inl ⟨by simp [eligible, hfin, hts], h⟩
    · next timestamp hts =>
      have helig : eligible lib ca retention child = true := by simp [eligible, hfin, hts]
      split at h
      · next hold =>
        obtain ⟨tail, htail, rfl⟩ := Option.map_eq_some_iff.mp h
        have hexp : expired lib retention now child = true := by simpa [expired, hts] using hold
        exact Or.inr (Or.inl ⟨helig, Or.inl hexp, tail, rfl, htail⟩)
      · next hyoung =>
        split at h
        · next hfull =>
          obtain ⟨tail, htail, rfl⟩ := Option.map_eq_some_iff.mp h
          exact Or.inr (Or.inl ⟨helig, Or.inr hfull, tail, rfl, htail⟩)
        · next hroom =>
          have hexp : expired lib retention now child = false := by
            simpa [expired, hts] using hyoung
          exact Or.inr (Or.inr ⟨by simp [counted, helig, hexp], hroom, h⟩)
  · next hfin =>
    refine Or.inl ⟨?_, h⟩
    unfold eligible
    split
    · next hok _ => exact absurd hok hfin
    · rfl

/-- The loop selects the expendable children. -/
theorem mem_selectInactive_iff
    (hlimit : ∀ limit ∈ retention.historyCountLimit, limit < 2 ^ 31)
    (hkeep : retention.historyCountLimit.isSome → 0 ≤ keep)
    (h : selectInactive lib ca retention now keep items = some selected) :
    y ∈ selected ↔ Expendable lib ca retention now y keep items := by
  induction items generalizing keep selected with
  | nil =>
    obtain rfl : [] = selected := Option.some.inj h
    simp [Expendable]
  | cons child rest ih =>
    rw [expendable_cons]
    rcases selectInactive_cons h with
      ⟨helig, hrest⟩ | ⟨helig, hwhy, tail, rfl, htail⟩ | ⟨hcount, hroom, hrest⟩
    · have hcount : counted lib ca retention now child = false := by simp [counted, helig]
      rw [ih hkeep hrest, hcount, if_neg Bool.false_ne_true, add_zero]
      constructor
      · exact Or.inr
      · rintro (⟨rfl, hy, -⟩ | hy)
        · rw [helig] at hy
          cases hy
        · exact hy
    · rw [List.mem_cons, ih hkeep htail]
      apply or_congr
      · constructor
        · rintro rfl
          exact ⟨rfl, helig, hwhy⟩
        · rintro ⟨rfl, -⟩
          rfl
      · rcases hwhy with hexp | hfull
        · have hcount : counted lib ca retention now child = false := by simp [counted, hexp]
          rw [hcount, if_neg Bool.false_ne_true, add_zero]
        · obtain ⟨limit, hl, hle⟩ := hfull
          rw [expendable_of_full ⟨limit, hl, hle⟩, expendable_of_full ⟨limit, hl, by split <;> omega⟩]
    · have hsecond : y ∈ selected ↔ Expendable lib ca retention now y (keep + 1) rest := by
        cases hnone : retention.historyCountLimit with
        | none =>
          have hvac : retention.historyCountLimit.isSome → 0 ≤ int32 (keep + 1) := by simp [hnone]
          rw [ih hvac hrest]
          exact expendable_of_unlimited hnone _
        | some limit =>
          have h0 : 0 ≤ keep := hkeep (by rw [hnone]; rfl)
          have hlt : keep < limit := not_le.mp fun hle => hroom ⟨limit, hnone, hle⟩
          have hbound := hlimit limit hnone
          have heq : int32 (keep + 1) = keep + 1 :=
            Pitr.int32_of_small (by omega) (by omega)
          rw [heq] at hrest
          exact ih (fun _ => by omega) hrest
      rw [hsecond, hcount, if_pos rfl]
      constructor
      · exact Or.inr
      · rintro (⟨rfl, -, hexp | hfull⟩ | hy)
        · simp [counted, hexp] at hcount
        · exact absurd hfull hroom
        · exact hy

end Select

section Order

variable {lib : Libs} {ca : CronAnything} {retention : ResourceRetention} {now : Time}
  {cache : List (String × Time)} {children : List Unstructured}

/-- What `sort.Sort` asks of `Less`. -/
structure IsOrdering (less : Unstructured → Unstructured → Bool) : Prop where
  irrefl : ∀ i, less i i = false
  trans : ∀ i j k, less i j = true → less j k = true → less i k = true
  neg_trans : ∀ i j k, less i j = false → less j k = false → less i k = false

/-- `sort.Sort` leaves nothing before an item that is less. -/
def Libs.Sorts (lib : Libs) : Prop :=
  ∀ less items, IsOrdering less → (lib.sort less items).Pairwise fun i j => less j i = false

theorem less_isOrdering (cache : List (String × Time)) : IsOrdering (less cache) where
  irrefl i := by
    unfold less
    cases cache.lookup i.uid <;> simp
  trans i j k := by
    unfold less
    cases cache.lookup i.uid <;> cases cache.lookup j.uid <;> cases cache.lookup k.uid <;> simp
    all_goals exact fun hij hjk => hjk.trans hij
  neg_trans i j k := by
    unfold less
    cases cache.lookup i.uid <;> cases cache.lookup j.uid <;> cases cache.lookup k.uid <;> simp
    all_goals exact fun hij hjk => hij.trans hjk

/-- Kubernetes gives every object its own UID, and its own name within a namespace. -/
structure Distinct (children : List Unstructured) : Prop where
  uids : (children.map (·.uid)).Nodup
  keys : (children.map fun child => (child.ns, child.name)).Nodup

/-- What one child adds to the cache. -/
def cacheEntry (item : Unstructured) (cache : List (String × Time)) :
    Except String Time → List (String × Time)
  | .ok finishedTime => (item.uid, finishedTime) :: cache
  | .error _ => cache

/-- `timestampCache` from a cache that holds something already. -/
def cacheFrom (lib : Libs) (retention : ResourceRetention) :
    List (String × Time) → List Unstructured → Option (List (String × Time)) :=
  List.foldlM fun cache item =>
    (getResourceTimestamp lib retention item).map (cacheEntry item cache)

theorem timestampCache_eq : timestampCache lib retention children =
    cacheFrom lib retention [] children := rfl

theorem cacheFrom_cons {item : Unstructured} {before : List (String × Time)}
    {rest : List Unstructured} :
    cacheFrom lib retention before (item :: rest) = some cache ↔
      ∃ read, getResourceTimestamp lib retention item = some read ∧
        cacheFrom lib retention (cacheEntry item before read) rest = some cache := by
  unfold cacheFrom
  rw [List.foldlM_cons]
  cases getResourceTimestamp lib retention item <;> simp

/-- Each child with a timestamp puts it into the cache, under its UID. -/
theorem cacheFrom_lookup {items : List Unstructured} {before : List (String × Time)}
    (hcache : cacheFrom lib retention before items = some cache)
    (huids : (items.map (·.uid)).Nodup) :
    (∀ uid ∉ items.map (·.uid), cache.lookup uid = before.lookup uid) ∧
      ∀ item ∈ items, ∀ timestamp,
        getResourceTimestamp lib retention item = some (.ok timestamp) →
          cache.lookup item.uid = some timestamp := by
  induction items generalizing before with
  | nil =>
    obtain rfl : before = cache := Option.some.inj hcache
    simp
  | cons item rest ih =>
    rw [List.map_cons, List.nodup_cons] at huids
    obtain ⟨read, hread, hrest⟩ := cacheFrom_cons.mp hcache
    obtain ⟨hother, hown⟩ := ih hrest huids.2
    constructor
    · intro uid huid
      rw [List.map_cons, List.mem_cons, not_or] at huid
      rw [hother uid huid.2]
      cases read with
      | ok timestamp =>
        have hne : (uid == item.uid) = false := beq_eq_false_iff_ne.mpr huid.1
        simp [cacheEntry, List.lookup_cons, hne]
      | error err => rfl
    · intro child hc timestamp hts
      rcases List.mem_cons.mp hc with rfl | hc
      · obtain rfl : Except.ok timestamp = read := Option.some.inj (hts.symm.trans hread)
        rw [hother _ huids.1]
        simp [cacheEntry]
      · exact hown child hc timestamp hts

/-- The list is arranged by timestamps, newest first. -/
theorem arrange_pairwise (hsorts : lib.Sorts) (huids : (children.map (·.uid)).Nodup) :
    (arrange lib retention children).Pairwise fun i j => ∀ ti tj,
      getResourceTimestamp lib retention i = some (.ok ti) →
        getResourceTimestamp lib retention j = some (.ok tj) → tj ≤ ti := by
  unfold arrange
  cases hcache : timestampCache lib retention children with
  | none => exact List.Pairwise.nil
  | some cache =>
    obtain ⟨-, hlookup⟩ := cacheFrom_lookup (timestampCache_eq ▸ hcache) huids
    have hsorted := hsorts (less cache) children (less_isOrdering cache)
    refine hsorted.imp_of_mem fun {i j} hi hj hless ti tj hti htj => ?_
    have hmi := hlookup i ((lib.sort_perm _ _).mem_iff.mp hi) ti hti
    have hmj := hlookup j ((lib.sort_perm _ _).mem_iff.mp hj) tj htj
    simpa [less, hmi, hmj] using hless

end Order

section Calls

variable {lib : Libs} {ca : CronAnything} {env : Env} {resource : GroupVersionResource}
  {retention : ResourceRetention} {children selected : List Unstructured} {calls : List Call}
  {child : Unstructured}

/-- A limit is set, so that the cleanup does something. -/
def InForce (ca : CronAnything) (retention : ResourceRetention) : Prop :=
  ca.spec.retention = some retention ∧
    ¬ (retention.historyTimeLimitSeconds = none ∧ retention.historyCountLimit = none)

/-- The section of the timestamp strategy is there, or there is nothing to look up. -/
def Readable (retention : ResourceRetention) (children : List Unstructured) : Prop :=
  retention.resourceTimestampStrategy = .field none → children = []

theorem getResourceTimestamp_eq_none_iff :
    getResourceTimestamp lib retention child = none ↔
      retention.resourceTimestampStrategy = .field none := by
  unfold getResourceTimestamp
  split <;> simp_all

theorem readable_cons {rest : List Unstructured} (h : Readable retention (child :: rest)) :
    retention.resourceTimestampStrategy ≠ .field none :=
  fun hnil => List.cons_ne_nil child rest (h hnil)

theorem cacheFrom_isSome (h : Readable retention children) (before : List (String × Time)) :
    ∃ cache, cacheFrom lib retention before children = some cache := by
  induction children generalizing before with
  | nil => exact ⟨before, rfl⟩
  | cons child rest ih =>
    have hsection := readable_cons h
    have hread : getResourceTimestamp lib retention child ≠ none :=
      mt getResourceTimestamp_eq_none_iff.mp hsection
    obtain ⟨read, hread⟩ := Option.ne_none_iff_exists'.mp hread
    obtain ⟨cache, hcache⟩ := ih (fun hnil => absurd hnil hsection) (cacheEntry child before read)
    exact ⟨cache, cacheFrom_cons.mpr ⟨read, hread, hcache⟩⟩

theorem selectInactive_isSome {now : Time} {keep : Int} (h : Readable retention children) :
    ∃ selected, selectInactive lib ca retention now keep children = some selected := by
  induction children generalizing keep with
  | nil => exact ⟨[], rfl⟩
  | cons child rest ih =>
    have hsection := readable_cons h
    have hrest : ∀ keep, ∃ selected,
        selectInactive lib ca retention now keep rest = some selected :=
      fun keep => ih fun hnil => absurd hnil hsection
    obtain ⟨passed, hpassed⟩ := hrest keep
    obtain ⟨kept, hkept⟩ := hrest (int32 (keep + 1))
    unfold selectInactive
    split
    · split
      · next hnone => exact absurd (getResourceTimestamp_eq_none_iff.mp hnone) hsection
      · exact ⟨passed, hpassed⟩
      · split
        · exact ⟨child :: passed, by rw [hpassed]; rfl⟩
        · split
          · exact ⟨child :: passed, by rw [hpassed]; rfl⟩
          · exact ⟨kept, hkept⟩
    · exact ⟨passed, hpassed⟩

/-- A nil section is dereferenced as soon as there is a child. -/
theorem readable_of_cacheFrom {before cache : List (String × Time)}
    (h : cacheFrom lib retention before children = some cache) : Readable retention children := by
  intro hnil
  cases children with
  | nil => rfl
  | cons child rest =>
    obtain ⟨read, hread, -⟩ := cacheFrom_cons.mp h
    rw [getResourceTimestamp_eq_none_iff.mpr hnil] at hread
    cases hread

/-- What a cleanup that is in force does. -/
theorem cleanupHistory_eq_some_iff (hforce : InForce ca retention) {remaining : List Unstructured} :
    cleanupHistory lib ca env resource children = some (calls, remaining) ↔
      Readable retention children ∧ ∃ selected,
        selectInactive lib ca retention env.now 0 (arrange lib retention children) =
          some selected ∧
        calls = deleteChildren env resource selected ∧
        remaining = (arrange lib retention children).filter fun child =>
          !(deletedNames calls).contains child.name := by
  unfold cleanupHistory arrange
  rw [hforce.1]
  simp only [if_neg hforce.2, Option.bind_eq_bind, Option.bind_eq_some_iff, Option.pure_def,
    Option.some.injEq, deleteInactiveResources, Prod.mk.injEq]
  constructor
  · rintro ⟨cache, hcache, selected, hsel, rfl, rfl⟩
    simp only [hcache]
    exact ⟨readable_of_cacheFrom hcache, selected, hsel, rfl, trivial⟩
  · rintro ⟨hread, selected, hsel, rfl, rfl⟩
    obtain ⟨cache, hcache⟩ : ∃ cache, timestampCache lib retention children = some cache :=
      cacheFrom_isSome hread []
    simp only [hcache] at hsel ⊢
    exact ⟨cache, rfl, selected, hsel, rfl, rfl⟩

theorem arrange_perm (h : Readable retention children) :
    (arrange lib retention children).Perm children := by
  obtain ⟨cache, hcache⟩ : ∃ cache, timestampCache lib retention children = some cache :=
    cacheFrom_isSome h []
  simp only [arrange, hcache]
  exact lib.sort_perm _ _

/-- A child of the list is told from the others by its namespace and name. -/
theorem delete_mem_iff {ok : Bool} (hd : Distinct children) (hsub : selected ⊆ children)
    (hc : child ∈ children) :
    Call.delete resource child.ns child.name ok ∈ deleteChildren env resource selected ↔
      child ∈ selected ∧ child.deletionTimestamp = none ∧
        ok = (env.deleteErr child.ns child.name).isNone := by
  unfold deleteChildren
  rw [List.mem_map]
  constructor
  · rintro ⟨y, hy, heq⟩
    obtain ⟨hsel, hdel⟩ := List.mem_filter.mp hy
    obtain ⟨-, hns, hname, rfl⟩ := Call.delete.inj heq
    obtain rfl : y = child :=
      List.inj_on_of_nodup_map hd.keys (hsub hsel) hc (by rw [hns, hname])
    exact ⟨hsel, Option.isNone_iff_eq_none.mp hdel, rfl⟩
  · rintro ⟨hsel, hdel, rfl⟩
    exact ⟨child, List.mem_filter.mpr ⟨hsel, by simp [hdel]⟩, rfl⟩

/-- The names of the children for which a delete call succeeds. -/
theorem mem_deletedNames_iff {name : String} :
    name ∈ deletedNames (deleteChildren env resource selected) ↔
      ∃ y ∈ selected, y.name = name ∧ y.deletionTimestamp = none ∧
        env.deleteErr y.ns y.name = none := by
  unfold deletedNames deleteChildren
  simp only [List.mem_filterMap, List.mem_map, List.mem_filter]
  constructor
  · rintro ⟨call, ⟨y, ⟨hy, hdel⟩, rfl⟩, hname⟩
    refine ⟨y, hy, ?_⟩
    cases herr : env.deleteErr y.ns y.name with
    | none =>
      simp only [herr, Option.isNone_none, Option.some.injEq] at hname
      exact ⟨hname, by simpa using hdel, rfl⟩
    | some err => simp [herr] at hname
  · rintro ⟨y, hy, rfl, hdel, herr⟩
    exact ⟨_, ⟨y, ⟨hy, by simp [hdel]⟩, rfl⟩, by simp [herr]⟩

end Calls

section Spec

variable (lib : Libs) (ca : CronAnything) (env : Env) (resource : GroupVersionResource)
  (children : List Unstructured) (calls : List Call) (remaining : List Unstructured)

/-- The deletion of a child is asked for. -/
def Deletes (child : Unstructured) : Prop :=
  ∃ ok, Call.delete resource child.ns child.name ok ∈ calls

/-- What a cleanup of the history is to do. -/
structure CleanedUp : Prop where
  /-- Only finished children are deleted. -/
  finished : ∀ call ∈ calls, ∃ child ∈ children, isFinished lib ca child = .ok true ∧
    ∃ ok, call = .delete resource child.ns child.name ok
  /-- A child that is deleted by count leaves no older one alone. -/
  newest : ∀ retention, ca.spec.retention = some retention → ∀ child ∈ children,
    Deletes resource calls child → expired lib retention env.now child = false →
    ∀ older ∈ children, isFinished lib ca older = .ok true → ∀ t u,
      timestampOf lib retention child = some t → timestampOf lib retention older = some u →
      u < t → Deletes resource calls older ∨ older.deletionTimestamp.isSome
  /-- No child without a timestamp is deleted by age. -/
  dated : ∀ retention, ca.spec.retention = some retention → ∀ child ∈ children,
    timestampOf lib retention child = none → expired lib retention env.now child = true →
      ¬ Deletes resource calls child
  /-- The children that are not deleted remain. -/
  remaining : remaining.Perm (children.filter fun child =>
    !calls.contains (.delete resource child.ns child.name true))

/-- The child is expendable, and its deletion is asked for and succeeds. -/
def Removable (retention : ResourceRetention) (child : Unstructured) : Prop :=
  Expendable lib ca retention env.now child 0 (arrange lib retention children) ∧
    child.deletionTimestamp = none ∧ env.deleteErr child.ns child.name = none

/-- Children with which a cleanup goes well. -/
structure Tidy (retention : ResourceRetention) : Prop where
  readable : Readable retention children
  dated : ∀ child ∈ children, isFinished lib ca child = .ok true →
    timestampOf lib retention child = none → expired lib retention env.now child = true →
      child.deletionTimestamp.isSome
  /-- Of children with the same name, all are removed or none. -/
  namesakes : ∀ child ∈ children, ∀ namesake ∈ children, namesake.name = child.name →
    Removable lib ca env children retention namesake → Removable lib ca env children retention child

end Spec

section Cleanup

variable {lib : Libs} {ca : CronAnything} {env : Env} {resource : GroupVersionResource}
  {retention : ResourceRetention} {children selected remaining : List Unstructured}
  {calls : List Call} {child : Unstructured}

theorem finished_of_eligible (h : eligible lib ca retention child = true) :
    isFinished lib ca child = .ok true := by
  unfold eligible at h
  split at h
  · assumption
  · cases h

theorem eligible_of_expired {now : Time} (hfin : isFinished lib ca child = .ok true)
    (h : expired lib retention now child = true) : eligible lib ca retention child = true := by
  unfold expired at h
  split at h
  · next hts => simp [eligible, hfin, hts]
  · cases h

theorem eligible_of_getResourceTimestamp {timestamp : Time} (hfin : isFinished lib ca child = .ok true)
    (h : getResourceTimestamp lib retention child = some (.ok timestamp)) :
    eligible lib ca retention child = true := by
  simp [eligible, hfin, h]

theorem getResourceTimestamp_of_timestampOf {timestamp : Time}
    (h : timestampOf lib retention child = some timestamp) :
    getResourceTimestamp lib retention child = some (.ok timestamp) := by
  unfold timestampOf at h
  split at h
  · next fieldPath heq =>
    split at h
    · next hts =>
      cases h
      simp [getResourceTimestamp, heq, hts, Except.map]
    · cases h
  · cases h

/-- A child past the age limit is expendable wherever it stands. -/
theorem expendable_of_expired {now : Time} {items : List Unstructured} (hmem : child ∈ items)
    (helig : eligible lib ca retention child = true)
    (hexp : expired lib retention now child = true) :
    Expendable lib ca retention now child 0 items := by
  obtain ⟨newer, older, rfl⟩ := List.append_of_mem hmem
  exact ⟨newer, older, rfl, helig, Or.inl hexp⟩

/-- If a child is beyond the count limit, so is every older one. -/
theorem expendable_of_older (hsorts : lib.Sorts) (hd : Distinct children)
    (hread : Readable retention children) {now t u : Time} {older : Unstructured}
    (h : Expendable lib ca retention now child 0 (arrange lib retention children))
    (hyoung : expired lib retention now child = false)
    (hc : getResourceTimestamp lib retention child = some (.ok t))
    (hold : older ∈ children) (helig : eligible lib ca retention older = true)
    (ho : getResourceTimestamp lib retention older = some (.ok u)) (hlt : u < t) :
    Expendable lib ca retention now older 0 (arrange lib retention children) := by
  obtain ⟨newer, rest, heq, -, hwhy⟩ := h
  obtain ⟨limit, hl, hle⟩ := hwhy.resolve_left (by simp [hyoung])
  have hsorted : (arrange lib retention children).Pairwise _ := arrange_pairwise hsorts hd.uids
  have hmem : older ∈ arrange lib retention children := (arrange_perm hread).mem_iff.mpr hold
  rw [heq] at hsorted hmem
  -- the older child cannot stand before the younger one
  have hafter : older ∈ rest := by
    rcases List.mem_append.mp hmem with hbefore | hmem
    · have hle := (List.pairwise_append.mp hsorted).2.2 _ hbefore _ List.mem_cons_self u t ho hc
      exact absurd hle (not_le.mpr hlt)
    · rcases List.mem_cons.mp hmem with rfl | hrest
      · obtain rfl : t = u := by simpa using hc.symm.trans ho
        exact absurd hlt (lt_irrefl _)
      · exact hrest
  obtain ⟨between, last, rfl⟩ := List.append_of_mem hafter
  refine ⟨newer ++ child :: between, last, by rw [heq]; simp, helig, Or.inr ⟨limit, hl, ?_⟩⟩
  rw [List.filter_append, List.length_append]
  push_cast
  omega

theorem perm_filter_iff {α : Type*} {items : List α} {p q : α → Bool} :
    (items.filter p).Perm (items.filter q) ↔ ∀ a ∈ items, p a = q a := by
  constructor
  · intro h a ha
    have hmem := h.mem_iff (a := a)
    simp only [List.mem_filter, ha, true_and] at hmem
    exact Bool.eq_iff_iff.mpr hmem
  · intro h
    rw [List.filter_congr h]

section InForce

variable (hint32 : ∀ limit ∈ retention.historyCountLimit, limit < 2 ^ 31) (hd : Distinct children)
  (hread : Readable retention children)
  (hsel : selectInactive lib ca retention env.now 0 (arrange lib retention children) =
    some selected)

include hread hsel in
theorem selected_subset : selected ⊆ children := fun _ hc =>
  (arrange_perm hread).mem_iff.mp (selectInactive_subset hsel hc)

include hint32 hsel in
theorem mem_selected_iff : child ∈ selected ↔
    Expendable lib ca retention env.now child 0 (arrange lib retention children) :=
  mem_selectInactive_iff hint32 (fun _ => le_rfl) hsel

include hint32 hd hread hsel

theorem deletes_iff (hc : child ∈ children) :
    Deletes resource (deleteChildren env resource selected) child ↔
      Expendable lib ca retention env.now child 0 (arrange lib retention children) ∧
        child.deletionTimestamp = none := by
  unfold Deletes
  simp only [delete_mem_iff hd (selected_subset hread hsel) hc, mem_selected_iff hint32 hsel]
  simp

theorem removed_iff (hc : child ∈ children) :
    Call.delete resource child.ns child.name true ∈ deleteChildren env resource selected ↔
      Removable lib ca env children retention child := by
  rw [delete_mem_iff hd (selected_subset hread hsel) hc, mem_selected_iff hint32 hsel]
  rw [eq_comm (a := true), Option.isNone_iff_eq_none]
  rfl

omit hd in
theorem mem_deletedNames_iff_removable {name : String} :
    name ∈ deletedNames (deleteChildren env resource selected) ↔
      ∃ namesake ∈ children, namesake.name = name ∧
        Removable lib ca env children retention namesake := by
  rw [mem_deletedNames_iff]
  constructor
  · rintro ⟨y, hy, hname, hdel, herr⟩
    exact ⟨y, selected_subset hread hsel hy, hname, (mem_selected_iff hint32 hsel).mp hy,
      hdel, herr⟩
  · rintro ⟨y, -, hname, hexp, hdel, herr⟩
    exact ⟨y, (mem_selected_iff hint32 hsel).mpr hexp, hname, hdel, herr⟩

/-- The bare names leave the right children when namesakes share their fate. -/
theorem remaining_iff :
    ((arrange lib retention children).filter fun child =>
        !(deletedNames (deleteChildren env resource selected)).contains child.name).Perm
      (children.filter fun child => !(deleteChildren env resource selected).contains
        (.delete resource child.ns child.name true)) ↔
      ∀ child ∈ children, ∀ namesake ∈ children, namesake.name = child.name →
        Removable lib ca env children retention namesake →
          Removable lib ca env children retention child := by
  have hperm : ((arrange lib retention children).filter fun child =>
        !(deletedNames (deleteChildren env resource selected)).contains child.name).Perm _ :=
    (arrange_perm hread).filter _
  rw [hperm.congr_left, perm_filter_iff]
  apply forall₂_congr
  intro child hc
  rw [Bool.not_inj_iff, Bool.eq_iff_iff, List.contains_iff_mem, List.contains_iff_mem,
    removed_iff hint32 hd hread hsel hc, mem_deletedNames_iff_removable hint32 hread hsel]
  constructor
  · intro h namesake hn hname hrem
    exact h.mp ⟨namesake, hn, hname, hrem⟩
  · intro h
    constructor
    · rintro ⟨namesake, hn, hname, hrem⟩
      exact h namesake hn hname hrem
    · intro hrem
      exact ⟨child, hc, rfl, hrem⟩

end InForce

theorem cleanupHistory_of_not_inForce (h : ¬ ∃ retention, InForce ca retention) :
    cleanupHistory lib ca env resource children = some ([], children) := by
  unfold cleanupHistory
  split
  · rfl
  · next retention heq =>
    rw [if_pos]
    by_contra hlimits
    exact h ⟨retention, heq, hlimits⟩

theorem cleanedUp_nil : CleanedUp lib ca env resource children [] children where
  finished call hc := absurd hc List.not_mem_nil
  newest _ _ _ _ hdel := absurd hdel.choose_spec List.not_mem_nil
  dated _ _ _ _ _ _ hdel := absurd hdel.choose_spec List.not_mem_nil
  remaining := by simp

end Cleanup

/-- Exactly when the cleanup does what it is to do. -/
theorem cleanedUp_iff (lib : Libs) (hsorts : lib.Sorts) (ca : CronAnything)
    (hint32 : ∀ retention, ca.spec.retention = some retention →
      ∀ limit ∈ retention.historyCountLimit, limit < 2 ^ 31)
    (env : Env) (resource : GroupVersionResource) (children : List Unstructured)
    (hd : Distinct children) :
    (∃ calls remaining, cleanupHistory lib ca env resource children = some (calls, remaining) ∧
      CleanedUp lib ca env resource children calls remaining) ↔
      ∀ retention, InForce ca retention → Tidy lib ca env children retention := by
  constructor
  · rintro ⟨calls, remaining, h, hclean⟩ retention hforce
    have hlimit := hint32 retention hforce.1
    obtain ⟨hread, selected, hsel, rfl, rfl⟩ := (cleanupHistory_eq_some_iff hforce).mp h
    constructor
    · exact hread
    · intro child hc hfin hmissing hexp
      by_contra halive
      apply hclean.dated retention hforce.1 child hc hmissing hexp
      rw [deletes_iff hlimit hd hread hsel hc]
      exact ⟨expendable_of_expired ((arrange_perm hread).mem_iff.mpr hc)
        (eligible_of_expired hfin hexp) hexp, Option.not_isSome_iff_eq_none.mp halive⟩
    · exact (remaining_iff hlimit hd hread hsel).mp hclean.remaining
  · intro htidy
    by_cases hforce : ∃ retention, InForce ca retention
    · obtain ⟨retention, hforce⟩ := hforce
      have hlimit := hint32 retention hforce.1
      obtain ⟨hread, hdated, hnames⟩ := htidy retention hforce
      obtain ⟨selected, hsel⟩ : ∃ selected,
          selectInactive lib ca retention env.now 0 (arrange lib retention children) =
            some selected :=
        selectInactive_isSome fun hnil => List.Perm.eq_nil (hread hnil ▸ arrange_perm hread)
      refine ⟨_, _, (cleanupHistory_eq_some_iff hforce).mpr ⟨hread, selected, hsel, rfl, rfl⟩, ?_⟩
      have hsame : ∀ {other}, ca.spec.retention = some other → other = retention :=
        fun h => Option.some.inj (h.symm.trans hforce.1)
      constructor
      · intro call hcall
        obtain ⟨child, hc, rfl⟩ := List.mem_map.mp hcall
        have hmem := List.mem_of_mem_filter hc
        obtain ⟨-, -, -, helig, -⟩ := (mem_selected_iff hlimit hsel).mp hmem
        exact ⟨child, selected_subset hread hsel hmem, finished_of_eligible helig, _, rfl⟩
      · intro other hother child hc hdel hyoung older hold hfin t u ht hu hlt
        obtain rfl := hsame hother
        obtain ⟨hexp, -⟩ := (deletes_iff hlimit hd hread hsel hc).mp hdel
        have hts := getResourceTimestamp_of_timestampOf hu
        have holder := expendable_of_older hsorts hd hread hexp hyoung
          (getResourceTimestamp_of_timestampOf ht) hold
          (eligible_of_getResourceTimestamp hfin hts) hts hlt
        cases halive : older.deletionTimestamp with
        | none => exact Or.inl ((deletes_iff hlimit hd hread hsel hold).mpr ⟨holder, halive⟩)
        | some deleted => exact Or.inr rfl
      · intro other hother child hc hmissing hexp hdel
        obtain rfl := hsame hother
        obtain ⟨⟨-, -, -, helig, -⟩, halive⟩ := (deletes_iff hlimit hd hread hsel hc).mp hdel
        have hdeleted := hdated child hc (finished_of_eligible helig) hmissing hexp
        rw [halive] at hdeleted
        cases hdeleted
      · exact (remaining_iff hlimit hd hread hsel).mpr hnames
    · exact ⟨[], children, cleanupHistory_of_not_inForce hforce, cleanedUp_nil⟩

section Samples

/-- Finished Backups whose content is the text of their timestamp field. -/
def datedLibs : Libs :=
  { hourlyLibs with
    getFieldValue := fun fieldPath resource =>
      if fieldPath = "{.status.phase}" then .ok "Succeeded" else .ok resource.content
    unmarshalTime := fun text =>
      if text = "2024-01-01T00:00:00Z" then .ok (date 2024 1 1)
      else if text = "2024-01-09T00:00:00Z" then .ok (date 2024 1 9)
      else .error "cannot parse" }

theorem datedLibs_sorts : datedLibs.Sorts := by
  intro less items hless
  have htotal : Std.Total fun a b => less b a = false := by
    constructor
    intro a b
    by_contra hboth
    simp only [not_or, Bool.not_eq_false] at hboth
    have hself := hless.trans b a b hboth.1 hboth.2
    rw [hless.irrefl b] at hself
    cases hself
  have htrans : IsTrans Unstructured fun a b => less b a = false :=
    ⟨fun a b c hab hbc => hless.neg_trans c b a hbc hab⟩
  exact List.pairwise_insertionSort _ items

/-- Keep what is at most three days old, and no more than one of those. -/
def threeDays : ResourceRetention := ⟨some 1, some 259200, .field (some "{.status.startTime}")⟩

def retainingCron : CronAnything :=
  { nightlyCron with spec := { nightlyCron.spec with retention := some threeDays } }

def tenth : Env := { quietEnv with now := date 2024 1 10 }

def backupOf (ns name startTime : String) : Unstructured :=
  { foreignBackup with ns := ns, name := name, uid := ns ++ "/" ++ name, content := startTime }

def oldBackup : Unstructured := backupOf "team-a" "nightly-cron-1" "2024-01-01T00:00:00Z"

def newBackup : Unstructured := backupOf "team-a" "nightly-cron-2" "2024-01-09T00:00:00Z"

theorem two_backups_distinct : Distinct [oldBackup, newBackup] := by
  constructor <;> decide +kernel

theorem retainingCron_limit (retention : ResourceRetention)
    (h : retainingCron.spec.retention = some retention) :
    ∀ limit ∈ retention.historyCountLimit, limit < 2 ^ 31 := by
  obtain rfl : threeDays = retention := Option.some.inj h
  rintro limit ⟨⟩
  decide

/-- Of two Backups with their own names and timestamps, the old one goes. -/
theorem old_backup_cleaned_up :
    ∃ calls remaining, cleanupHistory datedLibs retainingCron tenth backups
        [oldBackup, newBackup] = some (calls, remaining) ∧
      CleanedUp datedLibs retainingCron tenth backups [oldBackup, newBackup] calls remaining := by
  apply (cleanedUp_iff datedLibs datedLibs_sorts retainingCron retainingCron_limit tenth backups
    [oldBackup, newBackup] two_backups_distinct).mpr
  rintro retention ⟨hret, -⟩
  obtain rfl : threeDays = retention := Option.some.inj hret
  constructor
  · rintro ⟨⟩
  · have hdated : ∀ child ∈ [oldBackup, newBackup],
        timestampOf datedLibs threeDays child ≠ none := by decide +kernel
    intro child hc _ hmissing
    exact absurd hmissing (hdated child hc)
  · have hnames : ∀ child ∈ [oldBackup, newBackup], ∀ namesake ∈ [oldBackup, newBackup],
        namesake.name = child.name → namesake = child := by decide +kernel
    intro child hc namesake hn hname hrem
    exact hnames child hc namesake hn hname ▸ hrem

/-- A finished Backup whose timestamp field is empty. -/
def undatedBackup : Unstructured := backupOf "team-a" "nightly-cron-3" ""

/-- A recent Backup of another team that has the name of the old one. -/
def namesakeBackup : Unstructured := backupOf "team-b" "nightly-cron-1" "2024-01-09T00:00:00Z"

/-- A Backup without a timestamp is deleted by age, and a namesake that is still there is not
handed on. -/
theorem undated_and_namesake_lost :
    (∃ calls remaining, cleanupHistory datedLibs retainingCron tenth backups [undatedBackup] =
        some (calls, remaining) ∧
      ¬ CleanedUp datedLibs retainingCron tenth backups [undatedBackup] calls remaining) ∧
    ∃ calls remaining, cleanupHistory datedLibs retainingCron tenth backups
        [oldBackup, namesakeBackup] = some (calls, remaining) ∧
      calls = [.delete backups "team-a" "nightly-cron-1" true] ∧ remaining = [] ∧
      ¬ CleanedUp datedLibs retainingCron tenth backups [oldBackup, namesakeBackup] calls
        remaining := by
  constructor
  · refine ⟨_, _, rfl, fun hclean => ?_⟩
    apply hclean.dated threeDays rfl undatedBackup List.mem_cons_self (by decide +kernel)
      (by decide +kernel)
    exact ⟨true, by decide +kernel⟩
  · refine ⟨_, _, rfl, by decide +kernel, by decide +kernel, fun hclean => ?_⟩
    have hlost := hclean.remaining.mem_iff (a := namesakeBackup)
    exact absurd (hlost.mpr (by decide +kernel)) (by decide +kernel)

end Samples

end ElCarro.Cron
