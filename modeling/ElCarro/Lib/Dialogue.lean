import Mathlib.Data.Nat.Notation
import Mathlib.Logic.Relation
import Mathlib.Order.Defs.Unbundled

/-! # Programs that talk to a service

A program asks a service one request after the other and goes on with the replies; it ends
with a value or fails. The service is given by a relation: what it may reply to a request in
some state, and in which state it is then. What holds whenever a request is asked holds as
well when the program is cut off there.
-/

namespace Dialogue

variable {Q : Type} {R : Q → Type} {ε α β σ : Type}

inductive Talk (Q : Type) (R : Q → Type) (ε α : Type) where
  | done (a : α)
  | fail (e : ε)
  | ask (q : Q) (next : R q → Talk Q R ε α)

namespace Talk

def bind : Talk Q R ε α → (α → Talk Q R ε β) → Talk Q R ε β
  | .done a, f => f a
  | .fail e, _ => .fail e
  | .ask q next, f => .ask q fun r => (next r).bind f

instance : Monad (Talk Q R ε) where
  pure := .done
  bind := bind

/-- Ask, and go on with the reply. -/
def request (q : Q) : Talk Q R ε (R q) := .ask q .done

end Talk

/-- What the service may reply to a request, and where it is then. -/
abbrev Service (σ Q : Type) (R : Q → Type) := σ → (q : Q) → R q → σ → Prop

/-- A service that does nothing that the other one may not do. -/
def Refines (srv serve : Service σ Q R) : Prop := ∀ s q r t, srv s q r t → serve s q r t

/-- However the service replies, every request is asked in a state in which it may be, and the
program ends as wanted. -/
def Ends (serve : Service σ Q R) (ok : σ → Q → Prop) :
    Talk Q R ε α → (α → σ → Prop) → (ε → σ → Prop) → σ → Prop
  | .done a, P, _, s => P a s
  | .fail e, _, E, s => E e s
  | .ask q next, P, E, s => ok s q ∧ ∀ r t, serve s q r t → Ends serve ok (next r) P E t

/-- The program never asks anything else. -/
def Only (ok : Q → Prop) : Talk Q R ε α → Prop
  | .done _ => True
  | .fail _ => True
  | .ask q next => ok q ∧ ∀ r, Only ok (next r)

section Ends

variable {serve : Service σ Q R} {ok : σ → Q → Prop} {x : Talk Q R ε α} {f : α → Talk Q R ε β}
variable {P P' : α → σ → Prop} {E E' : ε → σ → Prop} {s : σ}

@[simp] theorem ends_pure {a : α} :
    Ends serve ok (pure a : Talk Q R ε α) P E s ↔ P a s := Iff.rfl

@[simp] theorem ends_fail {e : ε} :
    Ends serve ok (.fail e : Talk Q R ε α) P E s ↔ E e s := Iff.rfl

@[simp] theorem ends_request {q : Q} {P : R q → σ → Prop} :
    Ends serve ok (Talk.request q : Talk Q R ε (R q)) P E s ↔
      ok s q ∧ ∀ r t, serve s q r t → P r t := Iff.rfl

@[simp] theorem ends_bind {P : β → σ → Prop} :
    Ends serve ok (x >>= f) P E s ↔
      Ends serve ok x (fun a t => Ends serve ok (f a) P E t) E s := by
  induction x generalizing s with
  | done a => rfl
  | fail e => rfl
  | ask q next ih =>
    refine and_congr_right fun _ => ?_
    exact forall_congr' fun r => forall_congr' fun t => imp_congr_right fun _ => ih r

theorem Ends.mono (h : Ends serve ok x P E s) (hP : ∀ a t, P a t → P' a t)
    (hE : ∀ e t, E e t → E' e t) : Ends serve ok x P' E' s := by
  induction x generalizing s with
  | done a => exact hP a s h
  | fail e => exact hE e s h
  | ask q next ih => exact ⟨h.1, fun r t hr => ih r (h.2 r t hr)⟩

theorem Ends.of_refines {srv : Service σ Q R} (hsrv : Refines srv serve)
    (h : Ends serve ok x P E s) : Ends srv ok x P E s := by
  induction x generalizing s with
  | done a => exact h
  | fail e => exact h
  | ask q next ih => exact ⟨h.1, fun r t hr => ih r (h.2 r t (hsrv s q r t hr))⟩

/-- A service that always replies brings a program to some end. -/
theorem Ends.absurd (htotal : ∀ s q, ∃ r t, serve s q r t)
    (h : Ends serve ok x (fun _ _ => False) (fun _ _ => False) s) : False := by
  induction x generalizing s with
  | done a => exact h
  | fail e => exact h
  | ask q next ih =>
    obtain ⟨r, t, hr⟩ := htotal s q
    exact ih r (h.2 r t hr)

theorem Ends.weaken {ok' : σ → Q → Prop} (h : Ends serve ok x P E s)
    (hok : ∀ s q, ok s q → ok' s q) : Ends serve ok' x P E s := by
  induction x generalizing s with
  | done a => exact h
  | fail e => exact h
  | ask q next ih => exact ⟨hok s q h.1, fun r t hr => ih r (h.2 r t hr)⟩

theorem Ends.and {ok' : σ → Q → Prop} (h : Ends serve ok x P E s)
    (h' : Ends serve ok' x P' E' s) :
    Ends serve (fun t q => ok t q ∧ ok' t q) x (fun a t => P a t ∧ P' a t)
      (fun e t => E e t ∧ E' e t) s := by
  induction x generalizing s with
  | done a => exact ⟨h, h'⟩
  | fail e => exact ⟨h, h'⟩
  | ask q next ih => exact ⟨⟨h.1, h'.1⟩, fun r t hr => ih r (h.2 r t hr) (h'.2 r t hr)⟩

end Ends

section Within

/-- In every state in which it asks or ends, the program is within a relation of where it
began; it ends with the wanted values. -/
def Within (serve : Service σ Q R) (rel : σ → σ → Prop) (x : Talk Q R ε α)
    (P : α → σ → Prop) (s : σ) : Prop :=
  Ends serve (fun t _ => rel s t) x (fun a t => rel s t ∧ P a t) (fun _ t => rel s t) s

variable {serve : Service σ Q R} {rel rel' : σ → σ → Prop} {x : Talk Q R ε α}
variable {f : α → Talk Q R ε β} {P P' : α → σ → Prop} {s t : σ}

theorem Within.mono (h : Within serve rel x P s) (hP : ∀ a t, rel s t → P a t → P' a t) :
    Within serve rel x P' s :=
  Ends.mono h (fun a t ⟨hrel, ha⟩ => ⟨hrel, hP a t hrel ha⟩) fun _ _ h => h

/-- From another state, and in a wider relation. -/
theorem Within.from {Q' : α → σ → Prop} (h : Within serve rel x P t)
    (hrel : ∀ u, rel t u → rel' s u) (hP : ∀ a u, rel t u → P a u → Q' a u) :
    Ends serve (fun u _ => rel' s u) x (fun a u => rel' s u ∧ Q' a u) (fun _ u => rel' s u) t := by
  have hgoal : ∀ u, Ends serve (fun u _ => rel t u) x (fun a u => rel t u ∧ P a u)
      (fun _ u => rel t u) u →
      Ends serve (fun u _ => rel' s u) x (fun a u => rel' s u ∧ Q' a u) (fun _ u => rel' s u) u := by
    clear h
    induction x with
    | done a => exact fun u ⟨hu, ha⟩ => ⟨hrel u hu, hP a u hu ha⟩
    | fail e => exact fun u hu => hrel u hu
    | ask q next ih => exact fun u hu => ⟨hrel u hu.1, fun r v hr => ih r v (hu.2 r v hr)⟩
  exact hgoal t h

theorem Within.weaken (h : Within serve rel x P s) (hrel : ∀ u, rel s u → rel' s u) :
    Within serve rel' x P s := h.from hrel fun _ _ _ ha => ha

theorem Within.of_refines {srv : Service σ Q R} (hsrv : Refines srv serve)
    (h : Within serve rel x P s) : Within srv rel x P s := Ends.of_refines hsrv h

section Refl

variable [Std.Refl rel]

theorem Within.pure {a : α} (h : P a s) : Within serve rel (pure a : Talk Q R ε α) P s :=
  ⟨Std.Refl.refl s, h⟩

theorem Within.fail (e : ε) : Within serve rel (.fail e : Talk Q R ε α) P s := Std.Refl.refl s

theorem Within.request {q : Q} {P : R q → σ → Prop}
    (h : ∀ r t, serve s q r t → rel s t ∧ P r t) :
    Within serve rel (Talk.request q : Talk Q R ε (R q)) P s := ⟨Std.Refl.refl s, h⟩

end Refl

theorem Within.bind [IsTrans σ rel] {P' : β → σ → Prop} (hx : Within serve rel x P s)
    (hf : ∀ a t, rel s t → P a t → Within serve rel (f a) P' t) :
    Within serve rel (x >>= f) P' s := by
  rw [Within, ends_bind]
  refine Ends.mono hx ?_ fun _ _ h => h
  rintro a t ⟨hst, ha⟩
  exact (hf a t hst ha).from (fun u htu => IsTrans.trans s t u hst htu) fun _ _ _ h => h

/-- What no request changes, a program that asks no other requests does not change either. -/
theorem Only.within [Std.Refl rel] [IsTrans σ rel] {may : Q → Prop}
    (hserve : ∀ s q r t, may q → serve s q r t → rel s t) (hx : Only may x) (s : σ) :
    Within serve rel x (fun _ _ => True) s := by
  induction x generalizing s with
  | done a => exact .pure trivial
  | fail e => exact .fail e
  | ask q next ih =>
    refine ⟨Std.Refl.refl s, ?_⟩
    intro r t hr
    have hst := hserve s q r t hx.1 hr
    exact (ih r (hx.2 r) t).from (fun u htu => IsTrans.trans s t u hst htu) fun _ _ _ h => h

end Within

section Holds

/-- An invariant holds in every state in which the program asks or ends; it ends with the
wanted values. -/
def Holds (serve : Service σ Q R) (I : σ → Prop) (x : Talk Q R ε α) (P : α → σ → Prop)
    (s : σ) : Prop :=
  Ends serve (fun t _ => I t) x (fun a t => I t ∧ P a t) (fun _ t => I t) s

variable {serve : Service σ Q R} {I I' : σ → Prop} {x : Talk Q R ε α} {f : α → Talk Q R ε β}
variable {P P' : α → σ → Prop} {s : σ}

theorem Holds.pure {a : α} (hI : I s) (h : P a s) :
    Holds serve I (pure a : Talk Q R ε α) P s := ⟨hI, h⟩

theorem Holds.fail {e : ε} (hI : I s) : Holds serve I (.fail e : Talk Q R ε α) P s := hI

theorem Holds.request {q : Q} {P : R q → σ → Prop} (hI : I s)
    (h : ∀ r t, serve s q r t → I t ∧ P r t) :
    Holds serve I (Talk.request q : Talk Q R ε (R q)) P s := ⟨hI, h⟩

theorem Holds.bind {P' : β → σ → Prop} (hx : Holds serve I x P s)
    (hf : ∀ a t, I t → P a t → Holds serve I (f a) P' t) : Holds serve I (x >>= f) P' s := by
  rw [Holds, ends_bind]
  exact Ends.mono hx (fun a t h => hf a t h.1 h.2) fun _ _ h => h

/-- A weaker invariant. -/
theorem Holds.mono (h : Holds serve I x P s) (hI : ∀ t, I t → I' t)
    (hP : ∀ a t, I t → P a t → P' a t) : Holds serve I' x P' s :=
  (Ends.weaken (Ends.mono h (fun a t h => ⟨hI t h.1, hP a t h.1 h.2⟩) fun _ t h => hI t h)
    fun t _ h => hI t h)

end Holds

section Returns

/-- The program returns a value, and where the service is then. -/
inductive Returns (serve : Service σ Q R) : Talk Q R ε α → σ → α → σ → Prop
  | done (a : α) (s : σ) : Returns serve (.done a) s a s
  | later {q : Q} {next : R q → Talk Q R ε α} {r : R q} {s t u : σ} {a : α} (h : serve s q r t)
      (hret : Returns serve (next r) t a u) : Returns serve (.ask q next) s a u

theorem Ends.returns {serve : Service σ Q R} {ok : σ → Q → Prop} {x : Talk Q R ε α}
    {P : α → σ → Prop} {E : ε → σ → Prop} {s t : σ} {a : α} (h : Ends serve ok x P E s)
    (hret : Returns serve x s a t) : P a t := by
  induction hret with
  | done a s => exact h
  | later hr _ ih => exact ih (h.2 _ _ hr)

/-- A service that is a function. -/
def served (step : σ → (q : Q) → R q × σ) : Service σ Q R := fun s q r t => step s q = (r, t)

def run (step : σ → (q : Q) → R q × σ) : Talk Q R ε α → σ → Except ε α × σ
  | .done a, s => (.ok a, s)
  | .fail e, s => (.error e, s)
  | .ask q next, s => run step (next (step s q).1) (step s q).2

theorem returns_run {step : σ → (q : Q) → R q × σ} {x : Talk Q R ε α} {s : σ} {a : α}
    (h : (run step x s).1 = .ok a) : Returns (served step) x s a (run step x s).2 := by
  induction x generalizing s with
  | done b =>
    obtain rfl : b = a := Except.ok.inj h
    exact .done b s
  | fail e => cases h
  | ask q next ih => exact .later (Prod.eta _).symm (ih _ h)

end Returns

section Cut

variable {serve : Service σ Q R} {rel : σ → σ → Prop} {x : Talk Q R ε α} {s t : σ}

/-- The program can be cut off in this state. -/
inductive Cut (serve : Service σ Q R) : Talk Q R ε α → σ → σ → Prop
  | here (x : Talk Q R ε α) (s : σ) : Cut serve x s s
  | later {q : Q} {next : R q → Talk Q R ε α} {r : R q} {s t u : σ} (h : serve s q r t)
      (hcut : Cut serve (next r) t u) : Cut serve (.ask q next) s u

/-- Where a service that is a function is after some replies. -/
def after (step : σ → (q : Q) → R q × σ) : ℕ → Talk Q R ε α → σ → σ
  | n + 1, .ask q next, s => after step n (next (step s q).1) (step s q).2
  | _, _, s => s

theorem cut_after (step : σ → (q : Q) → R q × σ) (n : ℕ) (x : Talk Q R ε α) (s : σ) :
    Cut (served step) x s (after step n x s) := by
  induction n generalizing x s with
  | zero => exact .here x s
  | succ n ih =>
    cases x with
    | done a => exact .here _ s
    | fail e => exact .here _ s
    | ask q next => exact .later (Prod.eta _).symm (ih _ _)

theorem Ends.cut {I : σ → Prop} (h : Ends serve (fun t _ => I t) x (fun _ => I) (fun _ => I) s)
    (hcut : Cut serve x s t) : I t := by
  induction hcut with
  | here x s =>
    cases x with
    | done a => exact h
    | fail e => exact h
    | ask q next => exact h.1
  | later hr _ ih => exact ih (h.2 _ _ hr)

theorem Within.cut {P : α → σ → Prop} (h : Within serve rel x P s) (hcut : Cut serve x s t) :
    rel s t :=
  Ends.cut (Ends.mono h (fun _ _ h => h.1) fun _ _ h => h) hcut

theorem Holds.cut {I : σ → Prop} {P : α → σ → Prop} (h : Holds serve I x P s)
    (hcut : Cut serve x s t) : I t :=
  Ends.cut (Ends.mono h (fun _ _ h => h.1) fun _ _ h => h) hcut

/-- However often a program is started and cut off. -/
def Attempts (serve : Service σ Q R) (x : Talk Q R ε α) : σ → σ → Prop :=
  Relation.ReflTransGen (Cut serve x)

theorem Attempts.within [Std.Refl rel] [IsTrans σ rel] {I : σ → Prop} {P : α → σ → Prop}
    (hkeeps : ∀ s t, I s → rel s t → I t) (hx : ∀ s, I s → Within serve rel x P s)
    (h : Attempts serve x s t) (hs : I s) : rel s t := by
  induction h with
  | refl => exact Std.Refl.refl s
  | @tail t u hst hcut ih => exact IsTrans.trans s t u ih ((hx t (hkeeps s t hs ih)).cut hcut)

end Cut

section Only

variable {may : Q → Prop} {x : Talk Q R ε α} {f : α → Talk Q R ε β}

@[simp] theorem only_pure {a : α} : Only may (pure a : Talk Q R ε α) := trivial

@[simp] theorem only_fail {e : ε} : Only may (.fail e : Talk Q R ε α) := trivial

@[simp] theorem only_request {q : Q} : Only may (Talk.request q : Talk Q R ε (R q)) ↔ may q :=
  ⟨fun h => h.1, fun h => ⟨h, fun _ => trivial⟩⟩

theorem Only.bind (hx : Only may x) (hf : ∀ a, Only may (f a)) : Only may (x >>= f) := by
  induction x with
  | done a => exact hf a
  | fail e => trivial
  | ask q next ih => exact ⟨hx.1, fun r => ih r (hx.2 r)⟩

end Only

end Dialogue
