import Mathlib.Data.Finset.Sort

/-! # Listing a changing set in pages

A page shows the first elements from a cursor on, in increasing order, and gives the
first element it leaves out as the cursor of the next page. The set may change between
the pages: no element is ever shown twice, and an element that stays is shown.
-/

namespace Paging

section Pages

variable {α : Type*}

/-- What the pages show. -/
def listed (pages : List (List α × Option α)) : List α := pages.flatMap Prod.fst

/-- The last page has no cursor. -/
def Ended (pages : List (List α × Option α)) : Prop :=
  ∃ l, pages.getLast? = some (l, none)

theorem ended_cons_iff {l : List α} {b : α} {pages : List (List α × Option α)} :
    Ended ((l, some b) :: pages) ↔ Ended pages := by
  cases pages with
  | nil => simp [Ended]
  | cons p ps => simp [Ended]

end Pages

variable {α : Type*} [LinearOrder α]

/-- The elements from the cursor on; without a cursor, all of them. -/
def rest (S : Finset α) (c : Option α) : List α :=
  (S.sort (· ≤ ·)).filter fun a => ∀ b ∈ c, b ≤ a

def page (k : ℕ) (S : Finset α) (c : Option α) : List α := (rest S c).take k

/-- The first element that does not fit on the page. -/
def next (k : ℕ) (S : Finset α) (c : Option α) : Option α := (rest S c)[k]?

/--
The pages that a client sees that goes on from each page at its cursor, with the sets as
they are at its requests. It stops at the first page without a cursor.
-/
def follow (k : ℕ) : Option α → List (Finset α) → List (List α × Option α)
  | _, [] => []
  | c, S :: Ss =>
    (page k S c, next k S c) ::
      match next k S c with
      | none => []
      | some b => follow k (some b) Ss

variable {k : ℕ} {S : Finset α} {c : Option α} {a b : α}

theorem rest_pairwise (S : Finset α) (c : Option α) : (rest S c).Pairwise (· < ·) :=
  (Finset.sortedLT_sort S).pairwise.filter _

theorem mem_rest : a ∈ rest S c ↔ a ∈ S ∧ ∀ b ∈ c, b ≤ a := by
  simp [rest]

theorem length_rest_le (S : Finset α) (c : Option α) : (rest S c).length ≤ S.card := by
  calc (rest S c).length ≤ (S.sort (· ≤ ·)).length := List.length_filter_le _ _
    _ = S.card := S.length_sort (· ≤ ·)

theorem cursor_le_of_mem_page (h : a ∈ page k S c) : ∀ b ∈ c, b ≤ a :=
  (mem_rest.mp (List.mem_of_mem_take h)).2

theorem rest_eq_of_next (h : next k S c = some b) :
    rest S c = page k S c ++ b :: (rest S c).drop (k + 1) := by
  obtain ⟨hk, hb⟩ := List.getElem?_eq_some_iff.mp h
  rw [page, ← hb, List.cons_getElem_drop_succ, List.take_append_drop]

theorem lt_of_mem_page (h : next k S c = some b) (ha : a ∈ page k S c) : a < b := by
  have hp := rest_pairwise S c
  rw [rest_eq_of_next h] at hp
  exact (List.pairwise_append.mp hp).2.2 a ha b List.mem_cons_self

theorem rest_next (h : next k S c = some b) :
    rest S (some b) = (rest S c).filter fun a => b ≤ a := by
  have hc := (mem_rest.mp (List.mem_of_getElem? h)).2
  simp only [rest, List.filter_filter, Option.mem_some_iff, forall_eq']
  refine List.filter_congr fun a _ => ?_
  by_cases hb : b ≤ a
  · simpa [hb] using fun x hx => (hc x hx).trans hb
  · simp [hb]

theorem exists_mem_page (hk : 0 < k) (h : next k S c = some b) : ∃ a, a ∈ page k S c := by
  have hlen : k < (rest S c).length := (List.getElem?_eq_some_iff.mp h).1
  apply List.exists_mem_of_length_pos
  simp only [page, List.length_take]
  omega

/-- With every page there is less to come. -/
theorem length_rest_next_lt (hk : 0 < k) (h : next k S c = some b) :
    (rest S (some b)).length < (rest S c).length := by
  obtain ⟨a, ha⟩ := exists_mem_page hk h
  rw [rest_next h, List.length_filter_lt_length_iff_exists]
  exact ⟨a, List.mem_of_mem_take ha, by simpa using lt_of_mem_page h ha⟩

/-- An element from the cursor on is on the page, or it waits behind the next cursor. -/
theorem mem_page_or_le (ha : a ∈ S) (hc : ∀ b ∈ c, b ≤ a) :
    a ∈ page k S c ∨ ∃ b, next k S c = some b ∧ b ≤ a := by
  have hrest : a ∈ rest S c := mem_rest.mpr ⟨ha, hc⟩
  cases hn : next k S c with
  | none =>
    have hlen : (rest S c).length ≤ k := List.getElem?_eq_none_iff.mp hn
    exact .inl (by rwa [page, List.take_of_length_le hlen])
  | some b =>
    rw [rest_eq_of_next hn] at hrest
    rcases List.mem_append.mp hrest with hp | hp
    · exact .inl hp
    · have hsorted := rest_pairwise S c
      rw [rest_eq_of_next hn] at hsorted
      have hb := (List.pairwise_append.mp hsorted).2.1
      rcases List.mem_cons.mp hp with rfl | hp
      · exact .inr ⟨a, rfl, le_refl a⟩
      · exact .inr ⟨b, rfl, ((List.pairwise_cons.mp hb).1 a hp).le⟩

variable {Ss : List (Finset α)}

theorem follow_none (h : next k S c = none) :
    follow k c (S :: Ss) = [(page k S c, none)] := by
  simp [follow, h]

theorem follow_some (h : next k S c = some b) :
    follow k c (S :: Ss) = (page k S c, some b) :: follow k (some b) Ss := by
  simp [follow, h]

/-- The elements come in increasing order, and none before the cursor. -/
theorem listed_follow (k : ℕ) (c : Option α) (Ss : List (Finset α)) :
    (listed (follow k c Ss)).Pairwise (· < ·) ∧
      ∀ a ∈ listed (follow k c Ss), ∀ b ∈ c, b ≤ a := by
  induction Ss generalizing c with
  | nil => simp [follow, listed]
  | cons S Ss ih =>
    have hpage : (page k S c).Pairwise (· < ·) := (rest_pairwise S c).take
    cases hn : next k S c with
    | none =>
      rw [follow_none hn]
      simpa [listed] using ⟨hpage, fun a ha => cursor_le_of_mem_page ha⟩
    | some b =>
      obtain ⟨hsorted, hfrom⟩ := ih (some b)
      rw [follow_some hn]
      simp only [listed, List.flatMap_cons] at hsorted hfrom ⊢
      refine ⟨List.pairwise_append.mpr ⟨hpage, hsorted, fun x hx y hy => ?_⟩, fun x hx y hy => ?_⟩
      · exact (lt_of_mem_page hn hx).trans_le (hfrom y hy b rfl)
      · rcases List.mem_append.mp hx with hx | hx
        · exact cursor_le_of_mem_page hx y hy
        · have hyb : y ≤ b := (mem_rest.mp (List.mem_of_getElem? hn)).2 y hy
          exact hyb.trans (hfrom x hx b rfl)

/-- What is there at every request is shown, once the pages have come to their end. -/
theorem mem_listed_of_ended (hend : Ended (follow k c Ss))
    (ha : ∀ S ∈ Ss.take (follow k c Ss).length, a ∈ S) (hc : ∀ b ∈ c, b ≤ a) :
    a ∈ listed (follow k c Ss) := by
  induction Ss generalizing c with
  | nil => simp [follow, Ended] at hend
  | cons S Ss ih =>
    cases hn : next k S c with
    | none =>
      rw [follow_none hn] at ha ⊢
      have hS : a ∈ S := ha S (by simp)
      rcases mem_page_or_le (k := k) hS hc with hp | ⟨b, hb, -⟩
      · simpa [listed] using hp
      · simp [hn] at hb
    | some b =>
      rw [follow_some hn] at ha hend ⊢
      have hS : a ∈ S := ha S (by simp)
      simp only [listed, List.flatMap_cons, List.mem_append]
      rcases mem_page_or_le (k := k) hS hc with hp | ⟨b', hb', hle⟩
      · exact .inl hp
      · obtain rfl := Option.some.inj (hn.symm.trans hb')
        refine .inr (ih ?_ (fun T hT => ha T (by simp [hT])) (by simpa using hle))
        exact ended_cons_iff.mp hend

/-- The pages come to an end when the set no longer changes. -/
theorem ended_follow {n : ℕ} (hk : 0 < k) (hn : S.card < n) (c : Option α)
    (Ss : List (Finset α)) : Ended (follow k c (Ss ++ List.replicate n S)) := by
  -- the end of the listing, from any cursor
  have hlast : ∀ m c, (rest S c).length < m → Ended (follow k c (List.replicate m S)) := by
    intro m
    induction m with
    | zero => simp
    | succ m ih =>
      intro c hm
      rw [List.replicate_succ]
      cases hb : next k S c with
      | none => exact ⟨_, by rw [follow_none hb]; rfl⟩
      | some b =>
        have hlt := length_rest_next_lt hk hb
        rw [follow_some hb, ended_cons_iff]
        exact ih (some b) (by omega)
  induction Ss generalizing c with
  | nil => exact hlast n c ((length_rest_le S c).trans_lt hn)
  | cons T Ss ih =>
    rw [List.cons_append]
    cases hb : next k T c with
    | none => exact ⟨_, by rw [follow_none hb]; rfl⟩
    | some b =>
      rw [follow_some hb, ended_cons_iff]
      exact ih (some b)

end Paging
