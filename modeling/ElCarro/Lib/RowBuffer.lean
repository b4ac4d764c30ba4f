import Mathlib.Data.List.Forall2
import Mathlib.Data.List.Induction

/-! # Rows read into one buffer

The rows of a table are copied one after the other into a buffer that has one place for
each column. A copy that fails on its way leaves the places from there on as they were, so
a place shows the cell of the last row whose copy got that far.
-/

namespace RowBuffer

variable {C : Type}

structure Row (C : Type) where
  cells : List C
  /-- The column at which the copy fails, if it does. -/
  failedAt : Option ℕ
  deriving DecidableEq, Repr

/-- How many cells are copied. -/
def Row.copied (row : Row C) : ℕ := row.failedAt.getD row.cells.length

def copyInto (values : List C) (row : Row C) : List C :=
  row.cells.take row.copied ++ values.drop row.copied

/-- The buffer after some rows; before the first one all of its places are empty. -/
def buffer (null : C) (width : ℕ) (rows : List (Row C)) : List C :=
  rows.foldl copyInto (List.replicate width null)

/-- What a column shows: the cell of the last row whose copy got that far. -/
def shown (null : C) (rows : List (Row C)) (c : ℕ) : C :=
  ((rows.reverse.find? fun row => decide (c < row.copied)).bind (·.cells[c]?)).getD null

def Row.map {D : Type} (g : C → D) (row : Row C) : Row D := ⟨row.cells.map g, row.failedAt⟩

theorem Row.copied_map {D : Type} (g : C → D) (row : Row C) : (row.map g).copied = row.copied := by
  simp [Row.map, Row.copied]

theorem map_copyInto {D : Type} (g : C → D) (values : List C) (row : Row C) :
    (copyInto values row).map g = copyInto (values.map g) (row.map g) := by
  rw [copyInto, copyInto, Row.copied_map, List.map_append, List.map_take, List.map_drop]
  rfl

theorem map_shown {D : Type} (g : C → D) (null : C) (rows : List (Row C)) (c : ℕ) :
    g (shown null rows c) = shown (g null) (rows.map (Row.map g)) c := by
  have hcopied : (fun row : Row C => decide (c < (row.map g).copied)) =
      fun row => decide (c < row.copied) := funext fun row => by rw [Row.copied_map]
  rw [shown, shown, ← List.map_reverse, List.find?_map, Function.comp_def, hcopied]
  cases rows.reverse.find? fun row => decide (c < row.copied) with
  | none => rfl
  | some row =>
    simp only [Option.bind_some, Option.map_some, Row.map, List.getElem?_map]
    cases row.cells[c]? <;> rfl

theorem shown_mem (null : C) (rows : List (Row C)) (c : ℕ) :
    shown null rows c = null ∨ ∃ row ∈ rows, shown null rows c ∈ row.cells := by
  rw [shown]
  cases hfind : rows.reverse.find? fun row => decide (c < row.copied) with
  | none => exact Or.inl rfl
  | some row =>
    rw [Option.bind_some]
    cases hcell : row.cells[c]? with
    | none => exact Or.inl rfl
    | some cell =>
      have hrow := List.mem_reverse.mp (List.mem_of_find?_eq_some hfind)
      exact Or.inr ⟨row, hrow, List.mem_of_getElem? hcell⟩

section Buffer

variable {null : C} {width : ℕ} {rows : List (Row C)} {row : Row C} {values : List C}

theorem buffer_append : buffer null width (rows ++ [row]) =
    copyInto (buffer null width rows) row := by
  rw [buffer, List.foldl_append]
  rfl

theorem length_copyInto (hrow : row.cells.length = values.length) :
    (copyInto values row).length = values.length := by
  rw [copyInto, List.length_append, List.length_take, List.length_drop]
  omega

theorem getElem?_copyInto (hrow : row.cells.length = values.length) (c : ℕ) :
    (copyInto values row)[c]? = if c < row.copied then row.cells[c]? else values[c]? := by
  rw [copyInto, List.getElem?_append, List.length_take, List.getElem?_take, List.getElem?_drop]
  by_cases hc : c < row.copied
  · by_cases hlen : c < row.cells.length
    · rw [if_pos (Nat.lt_min.mpr ⟨hc, hlen⟩), if_pos hc, if_pos hc]
    · have hcells : row.cells[c]? = none := List.getElem?_eq_none (Nat.not_lt.mp hlen)
      have hvalues : values[row.copied + (c - min row.copied row.cells.length)]? = none :=
        List.getElem?_eq_none (by omega)
      simp [hc, hcells, hvalues]
  · have hle : ¬ c < min row.copied row.cells.length := by omega
    rw [if_neg hle, if_neg hc]
    by_cases hlen : row.copied ≤ row.cells.length
    · congr 1
      omega
    · rw [List.getElem?_eq_none (by omega), List.getElem?_eq_none (by omega)]

theorem length_buffer (hrows : ∀ row ∈ rows, row.cells.length = width) :
    (buffer null width rows).length = width := by
  induction rows using List.reverseRecOn with
  | nil => exact List.length_replicate
  | append_singleton rows row ih =>
    have hlen := ih fun r hr => hrows r (List.mem_append_left _ hr)
    rw [buffer_append, length_copyInto, hlen]
    rw [hlen]
    exact hrows row (by simp)

theorem getElem?_buffer (hrows : ∀ row ∈ rows, row.cells.length = width) {c : ℕ}
    (hc : c < width) : (buffer null width rows)[c]? = some (shown null rows c) := by
  induction rows using List.reverseRecOn with
  | nil => simp [buffer, shown, hc]
  | append_singleton rows row ih =>
    have hbefore : ∀ r ∈ rows, r.cells.length = width :=
      fun r hr => hrows r (List.mem_append_left _ hr)
    have hrow : row.cells.length = width := hrows row (by simp)
    rw [buffer_append, getElem?_copyInto (hrow.trans (length_buffer hbefore).symm), ih hbefore]
    by_cases hcopied : c < row.copied
    · simp [shown, hcopied, hrow, hc]
    · simp [shown, hcopied]

end Buffer

section Traversal

variable {α β : Type}

theorem mapM_eq_some_iff {f : α → Option β} {xs : List α} {ys : List β} :
    xs.mapM f = some ys ↔ List.Forall₂ (fun x y => f x = some y) xs ys := by
  induction xs generalizing ys with
  | nil => cases ys <;> simp
  | cons x xs ih =>
    rw [List.mapM_cons]
    cases hx : f x with
    | none => cases ys <;> simp [hx]
    | some y =>
      cases hxs : xs.mapM f with
      | none => cases ys <;> simp [hx, ← ih, hxs]
      | some rest => cases ys <;> simp [hx, ← ih, hxs]

/-- A traversal that ends well with results of a kind does so in each of its steps. -/
theorem exists_mapM_iff {f : α → Option β} {R : α → β → Prop} {xs : List α} :
    (∃ ys, xs.mapM f = some ys ∧ List.Forall₂ R xs ys) ↔
      ∀ x ∈ xs, ∃ y, f x = some y ∧ R x y := by
  simp only [mapM_eq_some_iff]
  constructor
  · rintro ⟨ys, hf, hR⟩
    induction hf with
    | nil => simp
    | cons hx _ ih =>
      cases hR with
      | cons hRx hR => exact List.forall_mem_cons.mpr ⟨⟨_, hx, hRx⟩, ih hR⟩
  · intro h
    induction xs with
    | nil => exact ⟨[], .nil, .nil⟩
    | cons x xs ih =>
      obtain ⟨⟨y, hy, hRy⟩, hrest⟩ := List.forall_mem_cons.mp h
      obtain ⟨ys, hf, hR⟩ := ih hrest
      exact ⟨y :: ys, .cons hy hf, .cons hRy hR⟩

theorem exists_mapM_eq_some_iff {f : α → Option β} {xs : List α} :
    (∃ ys, xs.mapM f = some ys) ↔ ∀ x ∈ xs, ∃ y, f x = some y := by
  have h : (∃ ys, xs.mapM f = some ys ∧ List.Forall₂ (fun x y => f x = some y) xs ys) ↔ _ :=
    exists_mapM_iff
  simpa only [mapM_eq_some_iff, and_self] using h

/-- A relation that holds of the results exactly when something holds of the arguments. -/
theorem forall₂_iff_forall {P Q : α → β → Prop} {S : α → Prop} {xs : List α} {ys : List β}
    (hP : List.Forall₂ P xs ys) (h : ∀ x y, P x y → (Q x y ↔ S x)) :
    List.Forall₂ Q xs ys ↔ ∀ x ∈ xs, S x := by
  induction hP with
  | nil => simp
  | cons hx _ ih => rw [List.forall₂_cons, ih, h _ _ hx, List.forall_mem_cons]

theorem exists_mem_of_forall₂ {R : α → β → Prop} {xs : List α} {ys : List β}
    (h : List.Forall₂ R xs ys) {x : α} (hx : x ∈ xs) : ∃ y ∈ ys, R x y := by
  induction h with
  | nil => simp at hx
  | @cons a b as bs hab _ ih =>
    rcases List.mem_cons.mp hx with rfl | hx
    · exact ⟨b, List.mem_cons_self, hab⟩
    · obtain ⟨y, hy, hR⟩ := ih hx
      exact ⟨y, List.mem_cons_of_mem _ hy, hR⟩

theorem map_mapM {γ : Type} (f : α → Option β) (g : β → γ) (xs : List α) :
    (xs.mapM f).map (List.map g) = xs.mapM fun x => (f x).map g := by
  induction xs with
  | nil => rfl
  | cons x xs ih =>
    rw [List.mapM_cons, List.mapM_cons, ← ih]
    cases f x <;> cases xs.mapM f <;> rfl

end Traversal

end RowBuffer
