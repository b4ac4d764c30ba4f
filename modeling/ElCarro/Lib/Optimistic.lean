import Mathlib.Logic.Function.Basic

/-! # Optimistic concurrency

A server keeps an object under a version, clients keep copies of it. A write that
changes the object moves the version on, so that every copy becomes stale at once;
only a copy under the current version can be written back.
-/

namespace Optimistic

variable {ι α : Type*}

structure Versioned (α : Type*) where
  value : α
  version : Nat

/-- The server takes a value; one that changes nothing keeps the version. -/
def Versioned.store [DecidableEq α] (server : Versioned α) (value : α) : Versioned α :=
  if value = server.value then server else ⟨value, server.version + 1⟩

/-- The copy is stale, or its value is related to the one of the server. -/
def Versioned.Follows (R : α → α → Prop) (copy server : Versioned α) : Prop :=
  copy.version < server.version ∨
    copy.version = server.version ∧ R copy.value server.value

/-- Every client has a stale copy or a related one. -/
def Coherent (R : ι → α → α → Prop) (server : Versioned α) (copies : ι → Versioned α) : Prop :=
  ∀ i, (copies i).Follows (R i) server

theorem Versioned.follows_self {R : α → α → Prop} (hR : ∀ a, R a a) (server : Versioned α) :
    server.Follows R server := .inr ⟨rfl, hR _⟩

section Store

variable [DecidableEq α]

@[simp] theorem Versioned.store_value (server : Versioned α) (value : α) :
    (server.store value).value = value := by
  unfold store
  split
  · next h => exact h.symm
  · rfl

theorem Versioned.Follows.store {R : α → α → Prop} {copy server : Versioned α}
    (h : copy.Follows R server) (value : α) : copy.Follows R (server.store value) := by
  unfold Versioned.store
  split
  · exact h
  · left
    rcases h with hlt | ⟨heq, _⟩
    · exact Nat.lt_succ_of_lt hlt
    · exact heq ▸ Nat.lt_succ_self _

end Store

namespace Coherent

variable {R : ι → α → α → Prop} {server : Versioned α} {copies : ι → Versioned α}

theorem store [DecidableEq α] (h : Coherent R server copies) (value : α) :
    Coherent R (server.store value) copies := fun i => (h i).store value

theorem update [DecidableEq ι] (h : Coherent R server copies) {i : ι} {copy : Versioned α}
    (hcopy : copy.Follows (R i) server) :
    Coherent R server (Function.update copies i copy) := by
  intro j
  by_cases hj : j = i
  · subst hj
    rwa [Function.update_self]
  · rw [Function.update_of_ne hj]
    exact h j

end Coherent

end Optimistic
