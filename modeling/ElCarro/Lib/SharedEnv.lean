import Mathlib.Logic.Function.Basic
import Mathlib.Data.Option.Basic
import Mathlib.Data.Fintype.Defs

/-! # Threads that share an environment

Threads set variables of one environment and start tools that read them. A readers and
writer lock orders some of their steps. What a thread has deferred is done when its
function returns, or as soon as it fails. A tool sees what its own thread has chosen,
as long as nobody sets a variable that another thread relies on for another value.
-/

namespace SharedEnv

variable {V α T : Type} [DecidableEq V]

inductive Deferred (V : Type) where
  | unlock
  | rUnlock
  | unset (x : V)
  deriving DecidableEq, Repr

inductive Act (V α T : Type) where
  | lock
  | rLock
  | set (x : V) (a : α)
  /-- Set the variable to the value that is stored under the lock. -/
  | setStored (x : V)
  /-- Set the variable until the function returns. -/
  | setDeferred (x : V) (a : α)
  /-- Rely on a value that somebody else has set. -/
  | choose (x : V) (a : α)
  | chooseStored (x : V)
  | store (a : α)
  | use (t : T)
  /-- A function returns, and what it has deferred last is done. -/
  | leave
  deriving DecidableEq, Repr

structure Thread (V α T : Type) where
  todo : List (Act V α T)
  deferred : List (Deferred V)
  /-- What the thread itself has set the variables to. -/
  chosen : V → Option α

/-- A tool that was started, with what its thread had chosen and what it saw. -/
structure Use (V α T : Type) where
  tool : T
  chosen : V → Option α
  seen : V → Option α

structure Process (V α T : Type) where
  env : V → Option α
  stored : α
  writer : Option Nat
  readers : List Nat
  threads : List (Thread V α T)
  log : List (Use V α T)

namespace Process

variable (s : Process V α T) (i : Nat) (th : Thread V α T)

def put : Process V α T := { s with threads := s.threads.set i th }

/-- Set a variable, or unset it. -/
def setenv (x : V) (v : Option α) (th : Thread V α T) : Process V α T :=
  { s with
    env := Function.update s.env x v
    threads := s.threads.set i { th with chosen := Function.update th.chosen x v } }

def undo (th : Thread V α T) : Deferred V → Process V α T
  | .unlock => { s.put i th with writer := none }
  | .rUnlock => { s.put i th with readers := s.readers.erase i }
  | .unset x => s.setenv i x none th

/-- One step of a thread; a lock that is taken makes it wait. -/
def act : Option (Process V α T) :=
  match th.todo with
  | [] =>
    match th.deferred with
    | [] => none
    | d :: deferred => some (s.undo i { th with deferred } d)
  | .lock :: todo =>
    if s.writer = none ∧ s.readers = [] then
      some { s.put i { th with todo, deferred := .unlock :: th.deferred } with writer := some i }
    else none
  | .rLock :: todo =>
    if s.writer = none then
      some { s.put i { th with todo, deferred := .rUnlock :: th.deferred } with
        readers := i :: s.readers }
    else none
  | .set x a :: todo => some (s.setenv i x (some a) { th with todo })
  | .setStored x :: todo => some (s.setenv i x (some s.stored) { th with todo })
  | .setDeferred x a :: todo =>
    some (s.setenv i x (some a) { th with todo, deferred := .unset x :: th.deferred })
  | .choose x a :: todo =>
    some (s.put i { th with todo, chosen := Function.update th.chosen x (some a) })
  | .chooseStored x :: todo =>
    some (s.put i { th with todo, chosen := Function.update th.chosen x (some s.stored) })
  | .store a :: todo => some { s.put i { th with todo } with stored := a }
  | .use t :: todo => some { s.put i { th with todo } with log := ⟨t, th.chosen, s.env⟩ :: s.log }
  | .leave :: todo =>
    match th.deferred with
    | [] => some (s.put i { th with todo })
    | d :: deferred => some (s.undo i { th with todo, deferred } d)

end Process

inductive Event (V α T : Type) where
  | start (todo : List (Act V α T))
  | act (i : Nat)
  /-- The thread returns early. -/
  | fail (i : Nat)
  /-- A variable is set by somebody outside. -/
  | outside (x : V) (a : α)

def step (s : Process V α T) : Event V α T → Option (Process V α T)
  | .start todo => some { s with threads := s.threads ++ [⟨todo, [], fun _ => none⟩] }
  | .act i => (s.threads[i]?).bind fun th => s.act i th
  | .fail i => (s.threads[i]?).map fun th => s.put i { th with todo := [] }
  | .outside x a => some { s with env := Function.update s.env x (some a) }

section Windows

variable (relies : T → V → Bool)

/-- A tool that relies on the variable is started before the thread sets it or waits. -/
def reliesOn (x : V) : List (Act V α T) → Bool
  | [] => false
  | .use t :: todo => relies t x || reliesOn x todo
  | .set y _ :: todo => x ≠ y && reliesOn x todo
  | .setStored y :: todo => x ≠ y && reliesOn x todo
  | .setDeferred y _ :: todo => x ≠ y && reliesOn x todo
  | .choose y _ :: todo => x ≠ y && reliesOn x todo
  | .chooseStored y :: todo => x ≠ y && reliesOn x todo
  | .lock :: _ => false
  | .rLock :: _ => false
  | .store _ :: todo => reliesOn x todo
  | .leave :: todo => reliesOn x todo

/-- The variable that the deferred action unsets. -/
def Deferred.sets : Option (Deferred V) → Option V
  | some (.unset x) => some x
  | _ => none

/-- The variable that the next step of the thread sets, and its value. -/
def writes (s : Process V α T) (th : Thread V α T) : Option (V × Option α) :=
  match th.todo with
  | .set x a :: _ => some (x, some a)
  | .setStored x :: _ => some (x, some s.stored)
  | .setDeferred x a :: _ => some (x, some a)
  | .leave :: _ => (Deferred.sets th.deferred.head?).map (·, none)
  | [] => (Deferred.sets th.deferred.head?).map (·, none)
  | _ => none

/-- After its next step the thread relies on this choice without having set it. -/
def begins (s : Process V α T) (th : Thread V α T) : Option (List (Act V α T) × (V → Option α)) :=
  match th.todo with
  | .lock :: todo => some (todo, th.chosen)
  | .rLock :: todo => some (todo, th.chosen)
  | .choose x a :: todo => some (todo, Function.update th.chosen x (some a))
  | .chooseStored x :: todo => some (todo, Function.update th.chosen x (some s.stored))
  | _ => none

/-- No step sets a variable that another thread relies on for another value, and a thread begins
to rely on what it has not set itself when the variable has the value of its choice. -/
def Undisturbed (s : Process V α T) : Event V α T → Prop
  | .start todo => ∀ x, reliesOn relies x todo = true → s.env x = none
  | .act i => ∀ th ∈ s.threads[i]?,
    (∀ w ∈ writes s th, ∀ other ∈ s.threads.zipIdx, other.2 ≠ i →
      reliesOn relies w.1 other.1.todo = true → other.1.chosen w.1 = w.2) ∧
    ∀ b ∈ begins s th, ∀ x, reliesOn relies x b.1 = true → b.2 x = s.env x
  | .fail _ => True
  | .outside x a => ∀ th ∈ s.threads, reliesOn relies x th.todo = true → th.chosen x = some a

instance [Fintype V] [DecidableEq α] (s : Process V α T) :
    ∀ e, Decidable (Undisturbed relies s e)
  | .start todo => inferInstanceAs (Decidable (∀ x, reliesOn relies x todo = true → s.env x = none))
  | .act i => inferInstanceAs (Decidable (∀ th ∈ s.threads[i]?,
    (∀ w ∈ writes s th, ∀ other ∈ s.threads.zipIdx, other.2 ≠ i →
      reliesOn relies w.1 other.1.todo = true → other.1.chosen w.1 = w.2) ∧
    ∀ b ∈ begins s th, ∀ x, reliesOn relies x b.1 = true → b.2 x = s.env x))
  | .fail _ => .isTrue trivial
  | .outside x a => inferInstanceAs (Decidable (∀ th ∈ s.threads,
    reliesOn relies x th.todo = true → th.chosen x = some a))

/-- The tool saw the choices of its thread. -/
def Use.Right (u : Use V α T) : Prop := ∀ x, relies u.tool x = true → u.seen x = u.chosen x

end Windows

section Invariant

variable {relies : T → V → Bool} {s t : Process V α T} {i : Nat} {th : Thread V α T}

/-- Every thread finds in the environment what it relies on. -/
structure Settled (relies : T → V → Bool) (s : Process V α T) : Prop where
  relied : ∀ j : Nat, ∀ th ∈ s.threads[j]?, ∀ x, reliesOn relies x th.todo = true →
    th.chosen x = s.env x
  right : ∀ u ∈ s.log, u.Right relies

omit [DecidableEq V] in
theorem getElem?_put {j : Nat} {other : Thread V α T} (h : (s.threads.set i th)[j]? = some other) :
    j = i ∧ other = th ∨ j ≠ i ∧ s.threads[j]? = some other := by
  by_cases hj : j = i
  · subst hj
    rw [List.getElem?_set_self'] at h
    obtain ⟨_, -, rfl⟩ := Option.map_eq_some_iff.mp h
    exact .inl ⟨rfl, rfl⟩
  · rw [List.getElem?_set_ne (Ne.symm hj)] at h
    exact .inr ⟨hj, h⟩

/-- A step that leaves the environment alone. -/
theorem Settled.put (hs : Settled relies s) (henv : t.env = s.env)
    (hthreads : t.threads = s.threads.set i th)
    (hlog : ∀ u ∈ t.log, u.Right relies)
    (hth : ∀ x, reliesOn relies x th.todo = true → th.chosen x = s.env x) : Settled relies t := by
  refine ⟨?_, hlog⟩
  intro j other hother x hx
  rw [hthreads] at hother
  rw [henv]
  rcases getElem?_put hother with ⟨-, rfl⟩ | ⟨-, hold⟩
  · exact hth x hx
  · exact hs.relied j other hold x hx

/-- A step that sets a variable which nobody else relies on for another value. -/
theorem Settled.setenv {x : V} {v : Option α} (hs : Settled relies s)
    (hothers : ∀ j : Nat, ∀ other ∈ s.threads[j]?, j ≠ i → reliesOn relies x other.todo = true →
      other.chosen x = v)
    (hth : ∀ y, y ≠ x → reliesOn relies y th.todo = true → th.chosen y = s.env y) :
    Settled relies (s.setenv i x v th) := by
  refine ⟨?_, hs.right⟩
  intro j other hother y hy
  unfold Process.setenv at hother ⊢
  simp only at hother ⊢
  rcases getElem?_put hother with ⟨-, rfl⟩ | ⟨hj, hold⟩
  · by_cases hyx : y = x
    · subst hyx
      simp
    · simp only [Function.update_of_ne hyx]
      exact hth y hyx hy
  · by_cases hyx : y = x
    · subst hyx
      rw [Function.update_self]
      exact hothers j other hold hj hy
    · rw [Function.update_of_ne hyx]
      exact hs.relied j other hold y hy

/-- What was deferred is done. -/
theorem Settled.undo {d : Deferred V} (hs : Settled relies s)
    (hothers : ∀ x ∈ Deferred.sets (some d), ∀ j : Nat, ∀ other ∈ s.threads[j]?, j ≠ i →
      reliesOn relies x other.todo = true → other.chosen x = none)
    (hth : ∀ y, reliesOn relies y th.todo = true → th.chosen y = s.env y) :
    Settled relies (s.undo i th d) := by
  cases d with
  | unlock => exact hs.put rfl rfl hs.right hth
  | rUnlock => exact hs.put rfl rfl hs.right hth
  | unset x => exact hs.setenv (hothers x rfl) fun y _ hy => hth y hy

theorem Settled.act (hs : Settled relies s) (hi : s.threads[i]? = some th)
    (hok : Undisturbed relies s (.act i)) (hact : s.act i th = some t) : Settled relies t := by
  obtain ⟨hothers, hbegins⟩ := hok th hi
  have hwrites : ∀ w ∈ writes s th, ∀ j : Nat, ∀ other ∈ s.threads[j]?, j ≠ i →
      reliesOn relies w.1 other.todo = true → other.chosen w.1 = w.2 := by
    intro w hw j other hother hj hrel
    exact hothers w hw (other, j) (List.mem_zipIdx_iff_getElem?.mpr hother) hj hrel
  have hrelied := hs.relied i th hi
  have hundo : ∀ {deferred : List (Deferred V)} {d : Deferred V} {todo : List (Act V α T)},
      th.deferred = d :: deferred → (∀ x, reliesOn relies x todo = reliesOn relies x th.todo) →
      writes s th = (Deferred.sets th.deferred.head?).map (·, none) →
      Settled relies (s.undo i { th with todo, deferred } d) := by
    intro deferred d todo hdeferred htodo hw
    apply hs.undo
    · intro x hx j other hother hj hrel
      have hmem : (x, none) ∈ writes s th := by
        rw [hw, hdeferred]
        simpa using hx
      exact hwrites _ hmem j other hother hj hrel
    · intro y hy
      simp only [htodo] at hy
      exact hrelied y hy
  unfold Process.act at hact
  cases htodo : th.todo with
  | nil =>
    simp only [htodo] at hact
    split at hact
    · cases hact
    · next d deferred hdeferred =>
      obtain rfl := Option.some.inj hact
      apply hundo hdeferred
      · intro x
        rw [htodo]
      · simp [writes, htodo]
  | cons a todo =>
    cases a with
    | lock =>
      simp only [htodo] at hact
      split at hact
      · obtain rfl := Option.some.inj hact
        have hb : (todo, th.chosen) ∈ begins s th := by simp [begins, htodo]
        exact hs.put rfl rfl hs.right fun x hx => hbegins _ hb x hx
      · cases hact
    | rLock =>
      simp only [htodo] at hact
      split at hact
      · obtain rfl := Option.some.inj hact
        have hb : (todo, th.chosen) ∈ begins s th := by simp [begins, htodo]
        exact hs.put rfl rfl hs.right fun x hx => hbegins _ hb x hx
      · cases hact
    | set x a =>
      simp only [htodo] at hact
      obtain rfl := Option.some.inj hact
      apply hs.setenv
      · exact hwrites (x, some a) (by simp [writes, htodo])
      · intro y hne hy
        apply hrelied
        simp [htodo, reliesOn, hne, hy]
    | setStored x =>
      simp only [htodo] at hact
      obtain rfl := Option.some.inj hact
      apply hs.setenv
      · exact hwrites (x, some s.stored) (by simp [writes, htodo])
      · intro y hne hy
        apply hrelied
        simp [htodo, reliesOn, hne, hy]
    | setDeferred x a =>
      simp only [htodo] at hact
      obtain rfl := Option.some.inj hact
      apply hs.setenv
      · exact hwrites (x, some a) (by simp [writes, htodo])
      · intro y hne hy
        apply hrelied
        simp [htodo, reliesOn, hne, hy]
    | choose x a =>
      simp only [htodo] at hact
      obtain rfl := Option.some.inj hact
      have hb : (todo, Function.update th.chosen x (some a)) ∈ begins s th := by
        simp [begins, htodo]
      exact hs.put rfl rfl hs.right fun y hy => hbegins _ hb y hy
    | chooseStored x =>
      simp only [htodo] at hact
      obtain rfl := Option.some.inj hact
      have hb : (todo, Function.update th.chosen x (some s.stored)) ∈ begins s th := by
        simp [begins, htodo]
      exact hs.put rfl rfl hs.right fun y hy => hbegins _ hb y hy
    | store a =>
      simp only [htodo] at hact
      obtain rfl := Option.some.inj hact
      refine hs.put rfl rfl hs.right fun y hy => ?_
      apply hrelied
      simpa [htodo, reliesOn] using hy
    | use tool =>
      simp only [htodo] at hact
      obtain rfl := Option.some.inj hact
      refine hs.put rfl rfl ?_ fun y hy => ?_
      · intro u hu
        rcases List.mem_cons.mp hu with rfl | hu
        · intro x hx
          have hrel : reliesOn relies x th.todo = true := by simp [htodo, reliesOn, hx]
          exact (hrelied x hrel).symm
        · exact hs.right u hu
      · apply hrelied
        simp [htodo, reliesOn, hy]
    | leave =>
      simp only [htodo] at hact
      split at hact
      · obtain rfl := Option.some.inj hact
        refine hs.put rfl rfl hs.right fun y hy => ?_
        apply hrelied
        simpa [htodo, reliesOn] using hy
      · next d deferred hdeferred =>
        obtain rfl := Option.some.inj hact
        apply hundo hdeferred
        · intro x
          simp [htodo, reliesOn]
        · simp [writes, htodo]

theorem Settled.step {e : Event V α T} (hs : Settled relies s) (hok : Undisturbed relies s e)
    (hstep : step s e = some t) : Settled relies t := by
  cases e with
  | start todo =>
    obtain rfl := Option.some.inj hstep
    refine ⟨?_, hs.right⟩
    intro j th hth x hx
    rw [Option.mem_def, List.getElem?_append] at hth
    split at hth
    · exact hs.relied j th hth x hx
    · rw [List.getElem?_singleton] at hth
      split at hth
      · obtain rfl := Option.some.inj hth
        exact (hok x hx).symm
      · cases hth
  | act i =>
    obtain ⟨th, hi, hact⟩ := Option.bind_eq_some_iff.mp hstep
    exact hs.act hi hok hact
  | fail i =>
    obtain ⟨th, hi, rfl⟩ := Option.map_eq_some_iff.mp hstep
    exact hs.put rfl rfl hs.right fun x hx => by cases hx
  | outside x a =>
    obtain rfl := Option.some.inj hstep
    refine ⟨?_, hs.right⟩
    intro j th hth y hy
    by_cases hyx : y = x
    · subst hyx
      simp only [Function.update_self]
      exact hok th (List.mem_of_getElem? hth) hy
    · simp only [Function.update_of_ne hyx]
      exact hs.relied j th hth y hy

end Invariant

end SharedEnv
