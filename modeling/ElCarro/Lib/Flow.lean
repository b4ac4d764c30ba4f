import Mathlib.Order.Defs.Unbundled

/-! # Programs with early return

A program transforms a state and either goes on with a value or returns early. The
weakest precondition of a program has one postcondition for each of the two; a
program stays within a relation when both ways out do.
-/

namespace Flow

variable {σ ρ α β : Type}

inductive Res (σ ρ α : Type) where
  | next (a : α) (s : σ)
  | done (r : ρ) (s : σ)

/-- The state in which a program ends, whichever way. -/
def Res.state : Res σ ρ α → σ
  | .next _ s => s
  | .done _ s => s

def Prog (σ ρ α : Type) : Type := σ → Res σ ρ α

instance : Monad (Prog σ ρ) where
  pure a := fun s => .next a s
  bind p f := fun s =>
    match p s with
    | .next a t => f a t
    | .done r t => .done r t

/-- Return early. -/
def finish (r : ρ) : Prog σ ρ α := fun s => .done r s

def get : Prog σ ρ σ := fun s => .next s s

theorem get_bind_apply (f : σ → Prog σ ρ α) (s : σ) : (get >>= f) s = f s s := rfl

theorem bind_next {p : Prog σ ρ β} {f : β → Prog σ ρ α} {s t : σ} {b : β} (h : p s = .next b t) :
    (p >>= f) s = f b t := by
  change (match p s with | .next a t => f a t | .done r t => .done r t : Res σ ρ α) = _
  rw [h]

theorem bind_done {p : Prog σ ρ β} {f : β → Prog σ ρ α} {s t : σ} {r : ρ} (h : p s = .done r t) :
    (p >>= f) s = .done r t := by
  change (match p s with | .next a t => f a t | .done r t => .done r t : Res σ ρ α) = _
  rw [h]

theorem bind_assoc {γ : Type} (p : Prog σ ρ α) (f : α → Prog σ ρ β) (g : β → Prog σ ρ γ) :
    p >>= f >>= g = p >>= fun a => f a >>= g := by
  funext s
  cases hp : p s with
  | next a t =>
    rw [bind_next hp]
    cases hf : f a t with
    | next b u => rw [bind_next ((bind_next hp).trans hf), bind_next hf]
    | done r u => rw [bind_done ((bind_next hp).trans hf), bind_done hf]
  | done r t => rw [bind_done hp, bind_done (bind_done hp)]

theorem pure_bind (a : α) (f : α → Prog σ ρ β) : pure a >>= f = f a := rfl

theorem bind_pure (p : Prog σ ρ α) : p >>= pure = p := by
  funext s
  cases hp : p s with
  | next a t => rw [bind_next hp]; rfl
  | done r t => rw [bind_done hp]

def modify (f : σ → σ) : Prog σ ρ Unit := fun s => .next () (f s)

def when (c : Prop) [Decidable c] (p : Prog σ ρ Unit) : Prog σ ρ Unit :=
  if c then p else pure ()

/-- Run on a copy of part of the state and put back the rest, whichever way out. -/
def onCopy (enter : σ → σ) (leave : σ → σ → σ) (p : Prog σ ρ α) : Prog σ ρ α := fun s =>
  match p (enter s) with
  | .next a t => .next a (leave s t)
  | .done r t => .done r (leave s t)

/-- Run on a part of the state. -/
def zoom {τ : Type} (view : σ → τ) (put : σ → τ → σ) (p : Prog τ ρ α) : Prog σ ρ α := fun s =>
  match p (view s) with
  | .next a t => .next a (put s t)
  | .done r t => .done r (put s t)

def wp (p : Prog σ ρ α) (Q : α → σ → Prop) (R : ρ → σ → Prop) (s : σ) : Prop :=
  match p s with
  | .next a t => Q a t
  | .done r t => R r t

section Rules

variable {Q Q' : α → σ → Prop} {R R' : ρ → σ → Prop} {s : σ}

@[simp] theorem wp_pure {a : α} : wp (pure a : Prog σ ρ α) Q R s ↔ Q a s := Iff.rfl

@[simp] theorem wp_finish {r : ρ} : wp (finish r : Prog σ ρ α) Q R s ↔ R r s := Iff.rfl

@[simp] theorem wp_get {Q : σ → σ → Prop} : wp (get : Prog σ ρ σ) Q R s ↔ Q s s := Iff.rfl

@[simp] theorem wp_modify {f : σ → σ} {Q : Unit → σ → Prop} :
    wp (modify f : Prog σ ρ Unit) Q R s ↔ Q () (f s) := Iff.rfl

@[simp] theorem wp_bind {p : Prog σ ρ β} {f : β → Prog σ ρ α} :
    wp (p >>= f) Q R s ↔ wp p (fun b => wp (f b) Q R) R s := by
  unfold wp
  change (match (match p s with | .next a t => f a t | .done r t => .done r t : Res σ ρ α) with
    | .next a t => Q a t | .done r t => R r t) ↔ _
  cases p s <;> rfl

theorem wp_congr {p q : Prog σ ρ α} (h : p s = q s) : wp p Q R s ↔ wp q Q R s := by
  unfold wp
  rw [h]

/-- Go on from where the first program ends. -/
theorem wp_bind_next {p : Prog σ ρ β} {f : β → Prog σ ρ α} {b : β} {t : σ} (h : p s = .next b t)
    (hf : wp (f b) Q R t) : wp (p >>= f) Q R s := by
  rw [wp_bind]
  unfold wp
  rw [h]
  exact hf

@[simp] theorem wp_when {c : Prop} [Decidable c] {p : Prog σ ρ Unit} {Q : Unit → σ → Prop} :
    wp (when c p) Q R s ↔ (c → wp p Q R s) ∧ (¬ c → Q () s) := by
  unfold when
  split <;> simp [*]

@[simp] theorem wp_onCopy {enter : σ → σ} {leave : σ → σ → σ} {p : Prog σ ρ α} :
    wp (onCopy enter leave p) Q R s ↔
      wp p (fun a t => Q a (leave s t)) (fun r t => R r (leave s t)) (enter s) := by
  unfold wp onCopy
  cases p (enter s) <;> rfl

@[simp] theorem wp_zoom {τ : Type} {view : σ → τ} {put : σ → τ → σ} {p : Prog τ ρ α} :
    wp (zoom view put p) Q R s ↔
      wp p (fun a t => Q a (put s t)) (fun r t => R r (put s t)) (view s) := by
  unfold wp zoom
  cases p (view s) <;> rfl

/-- A program ends where it ends. -/
theorem wp_self {p : Prog σ ρ α} :
    wp p (fun a t => p s = .next a t) (fun r t => p s = .done r t) s := by
  unfold wp
  cases p s <;> rfl

theorem wp.mono {p : Prog σ ρ α} (h : wp p Q R s) (hQ : ∀ a t, Q a t → Q' a t)
    (hR : ∀ r t, R r t → R' r t) : wp p Q' R' s := by
  unfold wp at *
  cases hp : p s <;> simp only [hp] at h ⊢
  · exact hQ _ _ h
  · exact hR _ _ h

theorem wp.and {p : Prog σ ρ α} (h : wp p Q R s) (h' : wp p Q' R' s) :
    wp p (fun a t => Q a t ∧ Q' a t) (fun r t => R r t ∧ R' r t) s := by
  unfold wp at *
  cases hp : p s <;> simp only [hp] at h h' <;> exact ⟨h, h'⟩

/-- Both ways out lead to a state with the property. -/
theorem wp.state {p : Prog σ ρ α} {P : σ → Prop}
    (h : wp p (fun _ => P) (fun _ => P) s) : P (p s).state := by
  unfold wp at h
  cases hp : p s <;> simp only [hp] at h <;> exact h

end Rules

/-- The program always returns early. -/
def Returns (p : Prog σ ρ α) : Prop := ∀ s, wp p (fun _ _ => False) (fun _ _ => True) s

namespace Returns

theorem finish (r : ρ) : Returns (finish r : Prog σ ρ α) := fun _ => trivial

theorem bind {p : Prog σ ρ β} {q : β → Prog σ ρ α} (hq : ∀ b, Returns (q b)) :
    Returns (p >>= q) := by
  intro s
  rw [wp_bind]
  unfold wp
  cases p s with
  | next b t => exact hq b t
  | done r t => trivial

theorem onCopy {enter : σ → σ} {leave : σ → σ → σ} {p : Prog σ ρ α} (hp : Returns p) :
    Returns (onCopy enter leave p) := fun s => wp_onCopy.mpr (hp (enter s))

/-- What a program that returns early goes on to is arbitrary. -/
theorem wp {p : Prog σ ρ α} (hp : Returns p) {Q : α → σ → Prop} (s : σ) :
    wp p Q (fun _ _ => True) s :=
  (hp s).mono (fun _ _ h => h.elim) fun _ _ h => h

end Returns

/-- Whichever way out, the program ends in a state related to the one it starts in. -/
def Within (rel : σ → σ → Prop) (p : Prog σ ρ α) : Prop :=
  ∀ s, wp p (fun _ => rel s) (fun _ => rel s) s

namespace Within

variable {rel : σ → σ → Prop} {p : Prog σ ρ α}

theorem pure [Std.Refl rel] (a : α) : Within rel (pure a : Prog σ ρ α) := fun s => Std.Refl.refl s

theorem finish [Std.Refl rel] (r : ρ) : Within rel (finish r : Prog σ ρ α) := fun s => Std.Refl.refl s

theorem get [Std.Refl rel] : Within rel (get : Prog σ ρ σ) := fun s => Std.Refl.refl s

theorem modify {f : σ → σ} (h : ∀ s, rel s (f s)) :
    Within rel (modify f : Prog σ ρ Unit) := h

theorem bind [IsTrans σ rel] {q : β → Prog σ ρ α} {p : Prog σ ρ β} (hp : Within rel p)
    (hq : ∀ b, Within rel (q b)) : Within rel (p >>= q) := by
  intro s
  refine wp_bind.mpr ((hp s).mono ?_ fun _ _ h => h)
  intro b t hst
  exact (hq b t).mono (fun _ _ h => IsTrans.trans _ _ _ hst h) fun _ _ h => IsTrans.trans _ _ _ hst h

theorem when [Std.Refl rel] {c : Prop} [Decidable c] {p : Prog σ ρ Unit}
    (hp : c → Within rel p) : Within rel (when c p) := by
  intro s
  exact wp_when.mpr ⟨fun hc => hp hc s, fun _ => Std.Refl.refl s⟩

theorem ite {c : Prop} [Decidable c] {p q : Prog σ ρ α} (hp : c → Within rel p)
    (hq : ¬ c → Within rel q) : Within rel (if c then p else q) := by
  split
  · next hc => exact hp hc
  · next hc => exact hq hc

/-- Two programs that keep a property one after the other. -/
theorem keeps_bind {I : σ → Prop} {p : Prog σ ρ β} {q : β → Prog σ ρ α} {s : σ}
    (hp : wp p (fun _ => I) (fun _ => I) s)
    (hq : ∀ b t, I t → wp (q b) (fun _ => I) (fun _ => I) t) :
    wp (p >>= q) (fun _ => I) (fun _ => I) s :=
  wp_bind.mpr (hp.mono (fun b t h => hq b t h) fun _ _ h => h)

end Within

end Flow
