import Mathlib.Order.Lattice
import Mathlib.Data.Int.Order.Basic
import Mathlib.Logic.Function.Basic

/-! # Work queues that delay

A delaying work queue holds keys that are ready to be processed and, for each
key, at most one wakeup that is still waiting for its time. A second delayed
wakeup of a key does not stand beside the first: the earlier of the two stays.
-/

namespace DelayQueue

variable {κ : Type*} [DecidableEq κ]

/-- The keys that are ready and the wakeup that each key waits for. -/
structure Queue (κ : Type*) where
  ready : κ → Bool
  waiting : κ → Option Int

/-- The earlier of the waiting wakeup and a new one. -/
def earliest : Option Int → Int → Int
  | none, t => t
  | some w, t => min w t

/-- Queue a key at once. -/
def add (q : Queue κ) (k : κ) : Queue κ := { q with ready := Function.update q.ready k true }

/-- Take a key out of the queue. -/
def take (q : Queue κ) (k : κ) : Queue κ := { q with ready := Function.update q.ready k false }

/-- Queue a key after a delay; a delay that is not positive queues it at once. -/
def addAfter (q : Queue κ) (k : κ) (now delay : Int) : Queue κ :=
  if 0 < delay then
    { q with waiting :=
        Function.update q.waiting k (some (earliest (q.waiting k) (now + delay))) }
  else add q k

/-- A wakeup whose time has come makes its key ready. -/
def deliver (q : Queue κ) (k : κ) (now : Int) : Option (Queue κ) :=
  match q.waiting k with
  | none => none
  | some w =>
    if w ≤ now then some (add { q with waiting := Function.update q.waiting k none } k) else none

/-- The key is ready, or a wakeup for it waits for the time or an earlier one. -/
def Pending (q : Queue κ) (k : κ) (t : Int) : Prop :=
  q.ready k = true ∨ ∃ w ∈ q.waiting k, w ≤ t

instance (q : Queue κ) (k : κ) (t : Int) : Decidable (Pending q k t) :=
  inferInstanceAs (Decidable (q.ready k = true ∨ ∃ w ∈ q.waiting k, w ≤ t))

section Lemmas

variable {q q' : Queue κ} {k k' : κ} {now delay t : Int}

@[simp] theorem add_waiting : (add q k).waiting = q.waiting := rfl

@[simp] theorem take_waiting : (take q k).waiting = q.waiting := rfl

theorem take_ready_of_ne (hk : k' ≠ k) : (take q k).ready k' = q.ready k' := by
  simp [take, hk]

theorem earliest_le_left {w : Option Int} {v : Int} (h : v ∈ w) : earliest w t ≤ v := by
  cases h
  exact min_le_left v t

theorem earliest_le_right {w : Option Int} : earliest w t ≤ t := by
  cases w with
  | none => exact le_rfl
  | some v => exact min_le_right v t

theorem addAfter_waiting_self (hd : 0 < delay) :
    (addAfter q k now delay).waiting k = some (earliest (q.waiting k) (now + delay)) := by
  rw [addAfter, if_pos hd]
  exact Function.update_self k _ _

theorem addAfter_waiting_of_not_pos (hd : ¬ 0 < delay) :
    (addAfter q k now delay).waiting = q.waiting := by
  rw [addAfter, if_neg hd, add_waiting]

theorem addAfter_waiting_of_ne (hk : k' ≠ k) :
    (addAfter q k now delay).waiting k' = q.waiting k' := by
  unfold addAfter
  split
  · exact Function.update_of_ne hk _ _
  · rfl

theorem add_ready_of (h : q.ready k' = true) : (add q k).ready k' = true := by
  by_cases hk : k' = k
  · subst hk
    exact Function.update_self k' true q.ready
  · exact (Function.update_of_ne hk true q.ready).trans h

theorem addAfter_ready_of (h : q.ready k' = true) :
    (addAfter q k now delay).ready k' = true := by
  unfold addAfter
  split
  · exact h
  · exact add_ready_of h

theorem Pending.add (h : Pending q k' t) : Pending (add q k) k' t := by
  rcases h with h | h
  · exact Or.inl (add_ready_of h)
  · exact Or.inr h

theorem pending_addAfter_of_le (hd : 0 < delay) (h : now + delay ≤ t) :
    Pending (addAfter q k now delay) k t := by
  refine Or.inr ⟨_, addAfter_waiting_self hd, ?_⟩
  exact earliest_le_right.trans h

/-- A second wakeup replaces the first only when it is earlier. -/
theorem Pending.addAfter (h : Pending q k' t) : Pending (addAfter q k now delay) k' t := by
  rcases h with h | ⟨w, hw, hle⟩
  · exact Or.inl (addAfter_ready_of h)
  · by_cases hk : k' = k
    · subst hk
      by_cases hd : 0 < delay
      · exact Or.inr ⟨_, addAfter_waiting_self hd, (earliest_le_left hw).trans hle⟩
      · rw [DelayQueue.addAfter, if_neg hd]
        exact Or.inr ⟨w, hw, hle⟩
    · exact Or.inr ⟨w, (addAfter_waiting_of_ne hk).trans hw, hle⟩

theorem Pending.take_of_ne (h : Pending q k' t) (hk : k' ≠ k) : Pending (take q k) k' t := by
  rcases h with h | h
  · exact Or.inl ((take_ready_of_ne hk).trans h)
  · exact Or.inr h

theorem deliver_eq_some (h : deliver q k now = some q') :
    ∃ w, q.waiting k = some w ∧ w ≤ now ∧
      q' = DelayQueue.add { q with waiting := Function.update q.waiting k none } k := by
  unfold deliver at h
  split at h
  · cases h
  · next w hw =>
    split at h
    · next hle =>
      exact ⟨w, hw, hle, (Option.some.inj h).symm⟩
    · cases h

theorem deliver_waiting_of_ne (h : deliver q k now = some q') (hk : k' ≠ k) :
    q'.waiting k' = q.waiting k' := by
  obtain ⟨w, -, -, rfl⟩ := deliver_eq_some h
  exact Function.update_of_ne hk none q.waiting

theorem deliver_ready_self (h : deliver q k now = some q') : q'.ready k = true := by
  obtain ⟨w, -, -, rfl⟩ := deliver_eq_some h
  exact Function.update_self k true q.ready

theorem Pending.deliver (h : Pending q k' t) (hq : deliver q k now = some q') :
    Pending q' k' t := by
  by_cases hk : k' = k
  · subst hk
    exact Or.inl (deliver_ready_self hq)
  · rcases h with h | ⟨w, hw, hle⟩
    · obtain ⟨v, -, -, rfl⟩ := deliver_eq_some hq
      exact Or.inl (add_ready_of h)
    · exact Or.inr ⟨w, (deliver_waiting_of_ne hq hk).trans hw, hle⟩

end Lemmas

end DelayQueue
