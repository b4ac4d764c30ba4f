import Mathlib.Data.List.Forall2

/-! # Maps by their writes

A map is the list of its entries; a write replaces the entry of its key. After a sequence
of writes the map has the last one for each key, and of the earlier entries those that were
not written again. Keys are compared as the language does, which need not be reflexive.
-/

namespace LastWrites

variable {κ ν : Type*} [BEq κ]

def put (m : List (κ × ν)) (k : κ) (v : ν) : List (κ × ν) :=
  m.filter (fun e => !(e.1 == k)) ++ [(k, v)]

def puts (m : List (κ × ν)) (writes : List (κ × ν)) : List (κ × ν) :=
  writes.foldl (fun m e => put m e.1 e.2) m

/-- The writes that no later one replaces. -/
def lastWrites : List (κ × ν) → List (κ × ν)
  | [] => []
  | e :: rest => if rest.any (e.1 == ·.1) then lastWrites rest else e :: lastWrites rest

theorem puts_eq (m writes : List (κ × ν)) :
    puts m writes = m.filter (fun e => !writes.any (e.1 == ·.1)) ++ lastWrites writes := by
  induction writes generalizing m with
  | nil => simp [puts, lastWrites]
  | cons e rest ih =>
    have hstep : puts m (e :: rest) = puts (put m e.1 e.2) rest := rfl
    rw [hstep, ih, put, List.filter_append, List.filter_filter, List.append_assoc]
    congr 1
    · refine List.filter_congr fun x _ => ?_
      rw [List.any_cons, Bool.not_or, Bool.and_comm]
    · by_cases h : rest.any (e.1 == ·.1) = true <;> simp [lastWrites, h]

theorem puts_nil (writes : List (κ × ν)) : puts [] writes = lastWrites writes := by
  rw [puts_eq, List.filter_nil, List.nil_append]

theorem lastWrites_subset (writes : List (κ × ν)) : lastWrites writes ⊆ writes := by
  induction writes with
  | nil => exact List.Subset.refl _
  | cons e rest ih =>
    rw [lastWrites]
    split
    · exact fun x hx => List.mem_cons_of_mem _ (ih hx)
    · exact List.cons_subset_cons e ih

/-- Which writes are the last does not depend on what they write. -/
theorem lastWrites_map {μ : Type*} (g : ν → μ) (writes : List (κ × ν)) :
    lastWrites (writes.map fun e => (e.1, g e.2)) =
      (lastWrites writes).map fun e => (e.1, g e.2) := by
  induction writes with
  | nil => rfl
  | cons e rest ih =>
    simp only [List.map_cons, lastWrites, List.any_map, Function.comp_def]
    split
    · exact ih
    · rw [ih, List.map_cons]

theorem puts_map {μ : Type*} (g : ν → μ) (m writes : List (κ × ν)) :
    (puts m writes).map (fun e => (e.1, g e.2)) =
      puts (m.map fun e => (e.1, g e.2)) (writes.map fun e => (e.1, g e.2)) := by
  rw [puts_eq, puts_eq, lastWrites_map, List.map_append, List.filter_map]
  simp only [Function.comp_def, List.any_map]

/-- The arguments whose writes are the last of their key. -/
def lastKeys {ι : Type*} (key : ι → κ) (xs : List ι) : List ι :=
  (lastWrites (xs.map fun x => (key x, x))).map Prod.snd

/-- What relates the arguments to their writes does so for the last ones. -/
theorem forall₂_lastWrites {ι : Type*} {key : ι → κ} {R : ι → ν → Prop} {xs : List ι}
    {writes : List (κ × ν)} (h : List.Forall₂ (fun x e => e.1 = key x ∧ R x e.2) xs writes) :
    List.Forall₂ (fun x e => e.1 = key x ∧ R x e.2) (lastKeys key xs) (lastWrites writes) := by
  induction h with
  | nil => exact .nil
  | @cons x e xs writes he hrest ih =>
    have hany : (writes.any (e.1 == ·.1)) = (xs.map fun x => (key x, x)).any (key x == ·.1) := by
      clear ih
      rw [he.1]
      induction hrest with
      | nil => rfl
      | cons he' _ ih' => rw [List.map_cons, List.any_cons, List.any_cons, ih', he'.1]
    rw [lastKeys, List.map_cons, lastWrites, lastWrites, hany]
    split
    · exact ih
    · exact .cons he ih

section Lawful

variable [LawfulBEq κ]

/-- Entries that are all written again leave no trace. -/
theorem puts_of_keys_subset {m writes : List (κ × ν)}
    (h : m.map Prod.fst ⊆ writes.map Prod.fst) : puts m writes = lastWrites writes := by
  rw [puts_eq, List.filter_eq_nil_iff.mpr, List.nil_append]
  intro e he
  obtain ⟨x, hx, hkey⟩ := List.mem_map.mp (h (List.mem_map_of_mem he))
  have hany : writes.any (e.1 == ·.1) = true :=
    List.any_eq_true.mpr ⟨x, hx, beq_iff_eq.mpr hkey.symm⟩
  simp [hany]

/-- Every key that is written has a last write. -/
theorem exists_lastWrites {writes : List (κ × ν)} {e : κ × ν} (he : e ∈ writes) :
    ∃ e' ∈ lastWrites writes, e'.1 = e.1 := by
  induction writes generalizing e with
  | nil => simp at he
  | cons x rest ih =>
    rw [lastWrites]
    rcases List.mem_cons.mp he with rfl | hrest
    · split
      · rename_i hany
        obtain ⟨y, hy, hkey⟩ := List.any_eq_true.mp hany
        rw [eq_of_beq hkey]
        exact ih hy
      · exact ⟨e, List.mem_cons_self, rfl⟩
    · obtain ⟨e', he', hkey⟩ := ih hrest
      split
      · exact ⟨e', he', hkey⟩
      · exact ⟨e', List.mem_cons_of_mem _ he', hkey⟩

/-- A key that was written is looked up as one of its writes. -/
theorem exists_lookup_puts {writes : List (κ × ν)} {k : κ} (hk : k ∈ writes.map Prod.fst) :
    ∃ v, (puts [] writes).lookup k = some v ∧ (k, v) ∈ writes := by
  obtain ⟨e, he, rfl⟩ := List.mem_map.mp hk
  obtain ⟨e', he', hkey⟩ := exists_lastWrites he
  rw [puts_nil]
  have hsome : ((lastWrites writes).lookup e.1).isSome = true :=
    List.lookup_isSome_iff.mpr ⟨e', he', by simp [hkey]⟩
  obtain ⟨v, hv⟩ := Option.isSome_iff_exists.mp hsome
  obtain ⟨l₁, l₂, hl, -⟩ := List.lookup_eq_some_iff.mp hv
  refine ⟨v, hv, lastWrites_subset writes ?_⟩
  simp [hl]

end Lawful

end LastWrites
