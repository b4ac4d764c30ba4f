import ElCarro.Lib.Flow

/-! # Loops of programs

A loop over a list ends with the first early return of a step. One kind ends with the first
error that a step reports as its value as well; another one asks every step whether it is
done, goes on if it is not, and is done if all of them are.
-/

namespace Flow

variable {σ ρ α ε τ : Type}

/-- The first error that a step reports. -/
def firstError (f : α → Prog σ ρ (Option ε)) : List α → Prog σ ρ (Option ε)
  | [] => pure none
  | a :: as => do
    match ← f a with
    | some err => pure (some err)
    | none => firstError f as

/-- Whether every step is done. -/
def allDone (f : α → Prog σ ρ Bool) : List α → Prog σ ρ Bool
  | [] => pure true
  | a :: as => do
    let done ← f a
    let rest ← allDone f as
    pure (done && rest)

theorem Within.firstError {rel : σ → σ → Prop} [Std.Refl rel] [IsTrans σ rel]
    {f : α → Prog σ ρ (Option ε)} (h : ∀ a, Within rel (f a)) (as : List α) :
    Within rel (firstError f as) := by
  induction as with
  | nil => exact Within.pure _
  | cons a as ih =>
    apply Within.bind (h a)
    intro err
    cases err with
    | some err => exact Within.pure _
    | none => exact ih

theorem Within.allDone {rel : σ → σ → Prop} [Std.Refl rel] [IsTrans σ rel]
    {f : α → Prog σ ρ Bool} (h : ∀ a, Within rel (f a)) (as : List α) :
    Within rel (allDone f as) := by
  induction as with
  | nil => exact Within.pure _
  | cons a as ih =>
    apply Within.bind (h a)
    intro done
    apply Within.bind ih
    intro rest
    exact Within.pure _

/-- A step that is done leaves a view of the state alone and shows something about it. After a
loop that is done, all steps have shown it about the same view. -/
theorem wp_allDone (view : σ → τ) {P : α → τ → Prop} {f : α → Prog σ ρ Bool}
    (h : ∀ a s, wp (f a) (fun done t => done = true → view t = view s ∧ P a (view s))
      (fun _ _ => True) s)
    (as : List α) (s : σ) :
    wp (allDone f as) (fun done t => done = true → view t = view s ∧ ∀ a ∈ as, P a (view s))
      (fun _ _ => True) s := by
  induction as generalizing s with
  | nil => exact fun _ => ⟨rfl, fun a ha => absurd ha List.not_mem_nil⟩
  | cons a as ih =>
    rw [allDone, wp_bind]
    apply (h a s).mono
    · intro done t hdone
      rw [wp_bind]
      apply (ih t).mono
      · intro rest u hrest hboth
        obtain ⟨rfl, rfl⟩ : done = true ∧ rest = true := by simpa using hboth
        obtain ⟨ht, ha⟩ := hdone rfl
        obtain ⟨hu, has⟩ := hrest rfl
        refine ⟨hu.trans ht, ?_⟩
        intro b hb
        rcases List.mem_cons.mp hb with rfl | hb
        · exact ha
        · exact ht ▸ has b hb
      · exact fun _ _ _ => trivial
    · exact fun _ _ _ => trivial

end Flow
