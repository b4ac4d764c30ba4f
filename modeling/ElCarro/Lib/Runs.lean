import Mathlib.Data.Option.Basic

/-! # Runs of a deterministic transition system

A system is given by a partial step function: an event carries every choice the
environment makes, and a disabled event has no successor. A guard restricts the
events of a run; the rules below pass from one guarded step to a whole run.
-/

namespace Runs

variable {σ ε : Type*} (step : σ → ε → Option σ)

/-- Execute a list of events, failing as soon as one of them is disabled. -/
def run : σ → List ε → Option σ
  | s, [] => some s
  | s, e :: es => (step s e).bind fun t => run t es

/-- Every step of the run meets the guard in the state in which it is taken. -/
def Meets (ok : σ → ε → Prop) : σ → List ε → Prop
  | _, [] => True
  | s, e :: es => ok s e ∧ ∀ t, step s e = some t → Meets ok t es

/-- The property holds in every state that the run passes through. -/
def Always (P : σ → Prop) : σ → List ε → Prop
  | s, [] => P s
  | s, e :: es => P s ∧ ∀ t, step s e = some t → Always P t es

/-- The property holds of every step that the run takes. -/
def EachStep (P : σ → ε → σ → Prop) : σ → List ε → Prop
  | _, [] => True
  | s, e :: es => ∀ t, step s e = some t → P s e t ∧ EachStep P t es

variable {step}

@[simp] theorem run_nil (s : σ) : run step s [] = some s := rfl

theorem run_cons {s t : σ} {e : ε} {es : List ε} :
    run step s (e :: es) = some t ↔ ∃ u, step s e = some u ∧ run step u es = some t := by
  simp only [run, Option.bind_eq_some_iff]

theorem run_append {s t : σ} {es fs : List ε} :
    run step s (es ++ fs) = some t ↔ ∃ u, run step s es = some u ∧ run step u fs = some t := by
  induction es generalizing s with
  | nil => simp
  | cons e es ih =>
    simp only [List.cons_append, run_cons, ih]
    constructor
    · rintro ⟨v, hv, u, hu, ht⟩
      exact ⟨u, ⟨v, hv, hu⟩, ht⟩
    · rintro ⟨u, ⟨v, hv, hu⟩, ht⟩
      exact ⟨v, hv, u, hu, ht⟩

instance decidableMeets {ok : σ → ε → Prop} [∀ s e, Decidable (ok s e)] :
    ∀ (s : σ) (es : List ε), Decidable (Meets step ok s es)
  | _, [] => .isTrue trivial
  | s, e :: es =>
    match h : step s e with
    | none => decidable_of_iff (ok s e) (by simp [Meets, h])
    | some t =>
      haveI : Decidable (Meets step ok t es) := decidableMeets t es
      decidable_of_iff (ok s e ∧ Meets step ok t es) (by simp [Meets, h])

theorem meets_of_forall {ok : σ → ε → Prop} (h : ∀ s e, ok s e) (s : σ) (es : List ε) :
    Meets step ok s es := by
  induction es generalizing s with
  | nil => trivial
  | cons e es ih => exact ⟨h s e, fun t _ => ih t⟩

theorem meets_append {ok : σ → ε → Prop} {s : σ} {es fs : List ε} :
    Meets step ok s (es ++ fs) ↔
      Meets step ok s es ∧ ∀ t, run step s es = some t → Meets step ok t fs := by
  induction es generalizing s with
  | nil => simp [Meets]
  | cons e es ih =>
    simp only [List.cons_append, Meets, ih, run_cons]
    constructor
    · rintro ⟨he, h⟩
      exact ⟨⟨he, fun u hu => (h u hu).1⟩, fun t ⟨u, hu, ht⟩ => (h u hu).2 t ht⟩
    · rintro ⟨⟨he, h⟩, hfs⟩
      exact ⟨he, fun u hu => ⟨h u hu, fun t ht => hfs t ⟨u, hu, ht⟩⟩⟩

theorem Meets.and_forall {ok : σ → ε → Prop} {p : ε → Prop} {s : σ} {es : List ε}
    (hm : Meets step ok s es) (hp : ∀ e ∈ es, p e) :
    Meets step (fun s e => ok s e ∧ p e) s es := by
  induction es generalizing s with
  | nil => trivial
  | cons e es ih =>
    refine ⟨⟨hm.1, hp e List.mem_cons_self⟩, ?_⟩
    intro t ht
    exact ih (hm.2 t ht) fun f hf => hp f (List.mem_cons_of_mem e hf)

section Rules

variable {ok : σ → ε → Prop} {I P : σ → Prop} {Q : σ → ε → σ → Prop}

/-- An invariant of guarded steps holds at the end of a guarded run. -/
theorem invariant (hstep : ∀ s e t, I s → ok s e → step s e = some t → I t)
    {s t : σ} {es : List ε} (hs : I s) (hm : Meets step ok s es)
    (hr : run step s es = some t) : I t := by
  induction es generalizing s with
  | nil =>
    obtain rfl : s = t := Option.some.inj hr
    exact hs
  | cons e es ih =>
    obtain ⟨u, hu, hr⟩ := run_cons.mp hr
    exact ih (hstep s e u hs hm.1 hu) (hm.2 u hu) hr

/-- An invariant of guarded steps holds in every state of a guarded run. -/
theorem always_of_invariant (hstep : ∀ s e t, I s → ok s e → step s e = some t → I t)
    (hP : ∀ s, I s → P s) {s : σ} {es : List ε} (hs : I s) (hm : Meets step ok s es) :
    Always step P s es := by
  induction es generalizing s with
  | nil => exact hP s hs
  | cons e es ih => exact ⟨hP s hs, fun t ht => ih (hstep s e t hs hm.1 ht) (hm.2 t ht)⟩

/-- The state at the end of a run is one of the states it passes through. -/
theorem Always.last {s t : σ} {es : List ε} (ha : Always step P s es)
    (hr : run step s es = some t) : P t := by
  induction es generalizing s with
  | nil =>
    obtain rfl : s = t := Option.some.inj hr
    exact ha
  | cons e es ih =>
    obtain ⟨u, hu, hr⟩ := run_cons.mp hr
    exact ih (ha.2 u hu) hr

/-- So is the state at its beginning. -/
theorem Always.first {s : σ} {es : List ε} (ha : Always step P s es) : P s := by
  cases es with
  | nil => exact ha
  | cons e es => exact ha.1

/-- The last step of a run is one of its steps. -/
theorem EachStep.last {s u t : σ} {es : List ε} {e : ε} (h : EachStep step Q s (es ++ [e]))
    (hr : run step s es = some u) (ht : step u e = some t) : Q u e t := by
  induction es generalizing s with
  | nil =>
    obtain rfl : s = u := Option.some.inj hr
    exact (h t ht).1
  | cons f fs ih =>
    obtain ⟨v, hv, hr⟩ := run_cons.mp hr
    exact ih (h v hv).2 hr

/-- A property of guarded steps taken under an invariant holds of every step of a guarded run. -/
theorem eachStep_of_invariant (hstep : ∀ s e t, I s → ok s e → step s e = some t → I t)
    (hQ : ∀ s e t, I s → ok s e → step s e = some t → Q s e t)
    {s : σ} {es : List ε} (hs : I s) (hm : Meets step ok s es) :
    EachStep step Q s es := by
  induction es generalizing s with
  | nil => trivial
  | cons e es ih =>
    intro t ht
    exact ⟨hQ s e t hs hm.1 ht, ih (hstep s e t hs hm.1 ht) (hm.2 t ht)⟩

end Rules

end Runs
