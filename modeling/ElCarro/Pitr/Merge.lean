import Mathlib.Data.List.SplitBy
import ElCarro.Pitr.Windows

/-! # Windows as chains of logs

The windows of the catalog are its replicated logs in the order of their first times, cut
wherever a log does not begin at the end of the one before it. Only the times count: a window
may pass from one incarnation to another.
-/

namespace ElCarro.Pitr

open GoTime

section

variable {metadata : LogMetadata} {keys keys' : List String}

def Replicated (metadata : LogMetadata) (k : String) : Prop :=
  k ∈ metadata ∧ (entryAt metadata k).replicaPath ≠ ""

/-- One log ends where the other begins. -/
def Meets (metadata : LogMetadata) (k k' : String) : Prop :=
  (entryAt metadata k).nextTime = (entryAt metadata k').firstTime

instance (k k' : String) : Decidable (Meets metadata k k') := inferInstanceAs (Decidable (_ = _))

/-- The keys of the logs that the loop looks at. -/
def replicatedKeys (metadata : LogMetadata) (keys : List String) : List String :=
  keys.filter fun k => (entryAt metadata k).replicaPath ≠ ""

/-- The logs of each window. -/
def chains (metadata : LogMetadata) (keys : List String) : List (List String) :=
  (replicatedKeys metadata keys).splitBy fun k k' => Meets metadata k k'

/-- A window is given by the keys of its first and its last log. -/
def ends (chain : List String) : String × String := (chain.headD "", chain.getLastD "")

section Loop

variable {window : List String} {k : String}

theorem replicatedKeys_cons_of_not (h : (entryAt metadata k).replicaPath = "") :
    replicatedKeys metadata (k :: keys) = replicatedKeys metadata keys :=
  List.filter_cons_of_neg (by simp [h])

theorem replicatedKeys_cons (h : (entryAt metadata k).replicaPath ≠ "") :
    replicatedKeys metadata (k :: keys) = k :: replicatedKeys metadata keys :=
  List.filter_cons_of_pos (by simp [h])

theorem headD_ne_empty (hkeys : "" ∉ window) (hne : window ≠ []) : window.headD "" ≠ "" := by
  cases window with
  | nil => exact absurd rfl hne
  | cons k window =>
    rintro rfl
    exact hkeys List.mem_cons_self

theorem ends_append_singleton (hne : window ≠ []) :
    ends (window ++ [k]) = (window.headD "", k) := by
  unfold ends
  rw [List.getLastD_eq_getLast?, List.getLast?_concat]
  cases window with
  | nil => exact absurd rfl hne
  | cons k' window => rfl

/-- The window grows by a log that begins at its end. -/
theorem isChain_append_singleton (hchain : window.IsChain (Meets metadata))
    (hmeets : Meets metadata (window.getLastD "") k) :
    (window ++ [k]).IsChain (Meets metadata) := by
  rw [List.isChain_append]
  refine ⟨hchain, List.isChain_singleton k, ?_⟩
  intro last hlast _ hk
  rw [List.head?_singleton, Option.mem_some_iff] at hk
  rw [List.getLastD_eq_getLast?, hlast] at hmeets
  exact hk ▸ hmeets

theorem splitBy_window (hne : window ≠ []) (hchain : window.IsChain (Meets metadata)) :
    window.splitBy (fun k k' => Meets metadata k k') = [window] :=
  List.splitBy_of_isChain hne (hchain.imp fun _ _ => decide_eq_true)

/-- The loop goes on from the logs of the current window. -/
theorem mergeLoop_eq (hkeys : "" ∉ keys) (hwindow : "" ∉ window) (hne : window ≠ [])
    (hchain : window.IsChain (Meets metadata)) :
    mergeLoop metadata keys (window.headD "") (window.getLastD "") =
      ((window ++ replicatedKeys metadata keys).splitBy fun k k' => Meets metadata k k').map
        ends := by
  induction keys generalizing window with
  | nil =>
    rw [mergeLoop, if_pos (headD_ne_empty hwindow hne)]
    rw [show replicatedKeys metadata [] = [] from rfl, List.append_nil, splitBy_window hne hchain]
    rfl
  | cons k keys ih =>
    rw [List.mem_cons, not_or] at hkeys
    rw [mergeLoop]
    split
    · next hnot =>
      rw [replicatedKeys_cons_of_not hnot]
      exact ih hkeys.2 hwindow hne hchain
    · next hreplicated =>
      rw [replicatedKeys_cons hreplicated, if_neg (headD_ne_empty hwindow hne)]
      split
      · next hmeets =>
        have hgrown := ih hkeys.2 (by simp [hwindow, hkeys.1])
          (List.append_ne_nil_of_left_ne_nil hne [k]) (isChain_append_singleton hchain hmeets)
        have hends := ends_append_singleton (k := k) hne
        unfold ends at hends
        rw [Prod.mk.injEq] at hends
        rwa [hends.1, hends.2, List.append_assoc] at hgrown
      · next hgap =>
        rw [List.splitBy_append_cons, splitBy_window hne hchain, List.singleton_append,
          List.map_cons]
        · congr 1
          exact ih hkeys.2 (by simpa using hkeys.1) (List.cons_ne_nil k [])
            (List.isChain_singleton k)
        · intro last hlast
          rw [List.getLastD_eq_getLast?, hlast] at hgap
          exact decide_eq_false hgap

theorem merge_eq (hkeys : "" ∉ keys) :
    merge metadata keys = (chains metadata keys).map ends := by
  unfold merge chains
  induction keys with
  | nil => rfl
  | cons k keys ih =>
    rw [List.mem_cons, not_or] at hkeys
    rw [mergeLoop]
    split
    · next hnot =>
      rw [replicatedKeys_cons_of_not hnot]
      exact ih hkeys.2
    · next hreplicated =>
      rw [replicatedKeys_cons hreplicated, if_pos rfl]
      exact mergeLoop_eq hkeys.2 (by simpa using hkeys.1) (List.cons_ne_nil k [])
        (List.isChain_singleton k)

end Loop

section Windows

/-- Another log that begins no earlier. -/
def Later (metadata : LogMetadata) (k k' : String) : Prop :=
  (entryAt metadata k).firstTime ≤ (entryAt metadata k').firstTime ∧ k ≠ k'

/-- A window that begins at the end of another one is kept from it by a third log that begins in
between, or the last log of the other one ends no later than it begins. -/
structure Parted (metadata : LogMetadata) (chain chain' : List String) : Prop where
  onward : ∀ k ∈ chain.getLast?, ∀ k' ∈ chain'.head?, Meets metadata k k' →
    ∃ k'', Replicated metadata k'' ∧ Later metadata k k'' ∧ Later metadata k'' k'
  back : ∀ k ∈ chain'.getLast?, ∀ k' ∈ chain.head?, Meets metadata k k' →
    (entryAt metadata k).nextTime ≤ (entryAt metadata k).firstTime

/-- The windows of a catalog, together with the logs of each. -/
structure MergedInto (metadata : LogMetadata) (windows : List (String × String))
    (chains : List (List String)) : Prop where
  windows_eq : windows = chains.map ends
  nonempty : [] ∉ chains
  /-- Every replicated log is in one window, at one place. -/
  nodup : chains.flatten.Nodup
  mem_iff : ∀ k, k ∈ chains.flatten ↔ Replicated metadata k
  isChain : ∀ chain ∈ chains, chain.IsChain (Meets metadata)
  /-- A window does not begin at the end of the window before it. -/
  gap : chains.IsChain fun chain chain' =>
    ∀ k ∈ chain.getLast?, ∀ k' ∈ chain'.head?, ¬ Meets metadata k k'
  parted : chains.Pairwise (Parted metadata)

theorem SortedKeys.nodup_replicatedKeys (h : SortedKeys metadata keys) :
    (replicatedKeys metadata keys).Nodup :=
  h.1.filter _

theorem SortedKeys.mem_replicatedKeys_iff (h : SortedKeys metadata keys) (k : String) :
    k ∈ replicatedKeys metadata keys ↔ Replicated metadata k := by
  unfold replicatedKeys Replicated
  rw [List.mem_filter, h.2.1]
  simp

theorem SortedKeys.pairwise_replicatedKeys (h : SortedKeys metadata keys) :
    (replicatedKeys metadata keys).Pairwise fun k k' =>
      (entryAt metadata k).firstTime ≤ (entryAt metadata k').firstTime :=
  h.2.2.filter _

theorem SortedKeys.later (h : SortedKeys metadata keys) :
    (replicatedKeys metadata keys).Pairwise (Later metadata) :=
  h.pairwise_replicatedKeys.and h.nodup_replicatedKeys

/-- Windows in order, each apart from the next one, are apart from each other. -/
theorem pairwise_parted {chains : List (List String)} (hne : [] ∉ chains)
    (hmem : ∀ chain ∈ chains, ∀ k ∈ chain, Replicated metadata k)
    (hlater : chains.Pairwise fun chain chain' =>
      ∀ k ∈ chain, ∀ k' ∈ chain', Later metadata k k')
    (hgap : chains.IsChain fun chain chain' =>
      ∀ k ∈ chain.getLast?, ∀ k' ∈ chain'.head?, ¬ Meets metadata k k') :
    chains.Pairwise (Parted metadata) := by
  induction chains with
  | nil => exact .nil
  | cons chain rest ih =>
    rw [List.pairwise_cons] at hlater ⊢
    constructor
    · intro chain' hchain'
      constructor
      · intro k hk k' hk' hmeets
        cases rest with
        | nil => cases hchain'
        | cons next rest =>
          rw [List.isChain_cons_cons] at hgap
          rcases List.mem_cons.mp hchain' with rfl | hfar
          · exact absurd hmeets (hgap.1 k hk k' hk')
          · -- the first log of the next window begins in between
            cases next with
            | nil => simp at hne
            | cons k'' next =>
              refine ⟨k'', hmem (k'' :: next) (by simp) k'' List.mem_cons_self, ?_, ?_⟩
              · exact hlater.1 _ List.mem_cons_self k (List.mem_of_mem_getLast? hk) k''
                  List.mem_cons_self
              · exact (List.pairwise_cons.mp hlater.2).1 chain' hfar k'' List.mem_cons_self k'
                  (List.mem_of_mem_head? hk')
      · intro k hk k' hk' hmeets
        have hle := (hlater.1 chain' hchain' k' (List.mem_of_mem_head? hk') k
          (List.mem_of_mem_getLast? hk)).1
        exact hmeets.trans_le hle
    · rw [List.mem_cons, not_or] at hne
      apply ih hne.2 _ hlater.2 hgap.tail
      intro chain' hchain'
      exact hmem chain' (List.mem_cons_of_mem _ hchain')

theorem SortedKeys.mergedInto (h : SortedKeys metadata keys) (hkeys : "" ∉ metadata) :
    MergedInto metadata (merge metadata keys) (chains metadata keys) := by
  have hflatten : (chains metadata keys).flatten = replicatedKeys metadata keys :=
    List.flatten_splitBy _ _
  have hne : [] ∉ chains metadata keys := List.nil_notMem_splitBy _ _
  have hmem : ∀ k, k ∈ (chains metadata keys).flatten ↔ Replicated metadata k := by
    rw [hflatten]
    exact h.mem_replicatedKeys_iff
  have hgap : (chains metadata keys).IsChain fun chain chain' =>
      ∀ k ∈ chain.getLast?, ∀ k' ∈ chain'.head?, ¬ Meets metadata k k' := by
    refine (List.isChain_getLast_head_splitBy _ _).imp ?_
    rintro chain chain' ⟨hchain, hchain', hfalse⟩ k hk k' hk'
    rw [List.getLast_of_mem_getLast? hk, List.head_of_mem_head? hk'] at hfalse
    exact of_decide_eq_false hfalse
  have hlater := h.later
  rw [← hflatten, List.pairwise_flatten] at hlater
  refine ⟨merge_eq ?_, hne, ?_, hmem, ?_, hgap, ?_⟩
  · rw [h.2.1]
    exact hkeys
  · rw [hflatten]
    exact h.nodup_replicatedKeys
  · intro chain hchain
    exact (List.isChain_of_mem_splitBy hchain).imp fun _ _ => of_decide_eq_true
  · refine pairwise_parted hne ?_ hlater.2 hgap
    intro chain hchain k hk
    exact (hmem k).mp (List.mem_flatten.mpr ⟨chain, hchain, hk⟩)

/-- Where no two replicated logs begin at one time, there is one order of them. -/
theorem replicatedKeys_unique (h : SortedKeys metadata keys) (h' : SortedKeys metadata keys')
    (hinj : ∀ k k', Replicated metadata k → Replicated metadata k' →
      (entryAt metadata k).firstTime = (entryAt metadata k').firstTime → k = k') :
    replicatedKeys metadata keys = replicatedKeys metadata keys' := by
  have hperm : (replicatedKeys metadata keys).Perm (replicatedKeys metadata keys') := by
    rw [List.perm_ext_iff_of_nodup h.nodup_replicatedKeys h'.nodup_replicatedKeys]
    intro k
    rw [h.mem_replicatedKeys_iff, h'.mem_replicatedKeys_iff]
  refine hperm.eq_of_pairwise ?_ h.pairwise_replicatedKeys h'.pairwise_replicatedKeys
  intro k k' hk hk' hle hle'
  exact hinj k k' ((h.mem_replicatedKeys_iff k).mp hk) ((h'.mem_replicatedKeys_iff k').mp hk')
    (le_antisymm hle hle')

end Windows

end

section Samples

def replicatedLog (incarnation thread : String) (firstTime nextTime : Time) : LogMetadataEntry :=
  ⟨⟨"", "gs://bk/mydb/log.arc", 0⟩, "", "", "", firstTime, nextTime, "", "", incarnation, thread⟩

/-- The first log of an incarnation begins where the last one of another incarnation ends. -/
def twoIncarnations : LogMetadata :=
  ((∅ : LogMetadata).insert "1-1-7" (replicatedLog "1" "1" 0 10)).insert "1-2-1"
    (replicatedLog "2" "1" 10 20)

/-- Two threads begin a log at one time. -/
def twoThreads : LogMetadata :=
  (((∅ : LogMetadata).insert "1-1-1" (replicatedLog "1" "1" 0 10)).insert "2-1-1"
    (replicatedLog "1" "2" 0 10)).insert "1-1-2" (replicatedLog "1" "1" 10 20)

theorem sortedKeys_twoIncarnations : SortedKeys twoIncarnations ["1-1-7", "1-2-1"] := by
  refine ⟨by decide, fun k => ?_, by decide⟩
  simp only [twoIncarnations, Finmap.mem_insert, Finmap.notMem_empty, List.mem_cons,
    List.not_mem_nil, or_false]
  exact or_comm

theorem mem_twoThreads (k : String) :
    k ∈ twoThreads ↔ k = "1-1-2" ∨ k = "2-1-1" ∨ k = "1-1-1" := by
  simp only [twoThreads, Finmap.mem_insert, Finmap.notMem_empty, or_false]

end Samples

end ElCarro.Pitr
