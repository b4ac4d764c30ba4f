import Mathlib.Data.Nat.Notation
import Mathlib.Logic.Function.Basic

/-! # Files and links

Names lead to files or, as links, to other names. Opening follows links up to a limit, also
where it creates a file; removing and linking are about the name itself.
-/

namespace LinkedFiles

variable {π α : Type}

inductive Node (π α : Type) where
  | file (data : List α)
  | link (target : π)
  deriving DecidableEq, Repr

abbrev Files (π α : Type) := π → Option (Node π α)

/-- The name at the end of the links; there need not be a file. -/
def follow (files : Files π α) : ℕ → π → Option π
  | 0, _ => none
  | n + 1, p =>
    match files p with
    | some (.link q) => follow files n q
    | _ => some p

def maxLinks : ℕ := 40

def leads (files : Files π α) (p : π) : Option π := follow files (maxLinks + 1) p

def dataAt (files : Files π α) (p : π) : Option (List α) :=
  match files p with
  | some (.file data) => some data
  | _ => none

/-- The file that is opened under a name. -/
def opens (files : Files π α) (p : π) : Option π :=
  (leads files p).bind fun q => (dataAt files q).map fun _ => q

def read (files : Files π α) (p : π) : Option (List α) := (leads files p).bind (dataAt files)

section Writing

variable [DecidableEq π]

def write (files : Files π α) (p : π) (data : List α) : Files π α :=
  Function.update files p (some (.file data))

/-- The file that is created under a name, and the files then; one that is there is emptied. -/
def create (files : Files π α) (p : π) : Option (π × Files π α) :=
  (leads files p).map fun q => (q, write files q [])

def remove (files : Files π α) (p : π) : Option (Files π α) :=
  (files p).map fun _ => Function.update files p none

def symlink (files : Files π α) (target p : π) : Option (Files π α) :=
  match files p with
  | some _ => none
  | none => some (Function.update files p (some (.link target)))

end Writing

section Reading

variable {files : Files π α} {p q : π} {data : List α} {n : ℕ}

theorem follow_of_link (h : files p = some (.link q)) :
    follow files (n + 1) p = follow files n q := by
  rw [follow, h]

theorem follow_of_ne_link (h : ∀ target, files p ≠ some (.link target)) :
    follow files (n + 1) p = some p := by
  rw [follow]
  split
  · next target htarget => exact absurd htarget (h target)
  · rfl

theorem link_or_ne_link (files : Files π α) (p : π) :
    (∃ target, files p = some (.link target)) ∨ ∀ target, files p ≠ some (.link target) := by
  rw [← not_exists]
  exact Classical.em _

theorem dataAt_eq_some_iff : dataAt files p = some data ↔ files p = some (.file data) := by
  rw [dataAt]
  split
  · next data' hfile => simp [hfile]
  · next hne => exact ⟨fun h => absurd h (by simp), fun h => absurd h (hne data)⟩

theorem ne_link_of_dataAt (h : dataAt files p = some data) (target : π) :
    files p ≠ some (.link target) := by
  intro htarget
  rw [dataAt, htarget] at h
  cases h

theorem leads_of_dataAt (h : dataAt files p = some data) : leads files p = some p :=
  follow_of_ne_link (ne_link_of_dataAt h)

theorem leads_of_none (h : files p = none) : leads files p = some p := by
  refine follow_of_ne_link ?_
  intro target htarget
  rw [h] at htarget
  cases htarget

/-- A link to a name that is not a link. -/
theorem leads_of_link (hp : files p = some (.link q))
    (hq : ∀ target, files q ≠ some (.link target)) : leads files p = some q :=
  (follow_of_link hp).trans (follow_of_ne_link hq)

theorem read_of_link (hp : files p = some (.link q)) (hq : dataAt files q = some data) :
    read files p = some data := by
  rw [read, leads_of_link hp (ne_link_of_dataAt hq)]
  exact hq

theorem opens_eq_some (h : opens files p = some q) :
    leads files p = some q ∧ ∃ data, dataAt files q = some data := by
  rw [opens, Option.bind_eq_some_iff] at h
  obtain ⟨q', hq', hopened⟩ := h
  obtain ⟨data, hdata, rfl⟩ := Option.map_eq_some_iff.mp hopened
  exact ⟨hq', data, hdata⟩

theorem opens_of_leads (h : leads files p = some q) (hq : dataAt files q = some data) :
    opens files p = some q := by
  rw [opens, h, Option.bind_some, hq]
  rfl

end Reading

section Chains

variable {files : Files π α} {p q : π} {n m : ℕ}

/-- The end of a chain of links is no link. -/
theorem ne_link_of_follow (h : follow files n p = some q) (target : π) :
    files q ≠ some (.link target) := by
  induction n generalizing p with
  | zero => cases h
  | succ n ih =>
    rcases link_or_ne_link files p with ⟨next, hnext⟩ | hne
    · rw [follow_of_link hnext] at h
      exact ih h
    · rw [follow_of_ne_link hne] at h
      obtain rfl := Option.some.inj h
      exact hne target

theorem follow_succ (h : follow files n p = some q) : follow files (n + 1) p = some q := by
  induction n generalizing p with
  | zero => cases h
  | succ n ih =>
    rcases link_or_ne_link files p with ⟨next, hnext⟩ | hne
    · rw [follow_of_link hnext] at h ⊢
      exact ih h
    · rw [follow_of_ne_link hne] at h ⊢
      exact h

theorem follow_mono (hnm : n ≤ m) (h : follow files n p = some q) :
    follow files m p = some q := by
  induction hnm with
  | refl => exact h
  | step _ ih => exact follow_succ ih

end Chains

section Changes

variable {files : Files π α} {p q : π} {data : List α}

theorem dataAt_congr {files' : Files π α} (h : files' q = files q) :
    dataAt files' q = dataAt files q := by
  rw [dataAt, dataAt, h]

variable [DecidableEq π]

@[simp] theorem dataAt_write_self : dataAt (write files p data) p = some data := by
  rw [dataAt, write, Function.update_self]

theorem write_of_ne (h : q ≠ p) : write files p data q = files q := Function.update_of_ne h _ _

theorem dataAt_write_of_ne (h : q ≠ p) : dataAt (write files p data) q = dataAt files q :=
  dataAt_congr (write_of_ne h)

/-- Writing to a file changes no links. -/
theorem follow_write (hp : ∀ target, files p ≠ some (.link target)) (n : ℕ) :
    follow (write files p data) n q = follow files n q := by
  induction n generalizing q with
  | zero => rfl
  | succ n ih =>
    by_cases hq : q = p
    · subst hq
      rw [follow_of_ne_link hp, follow_of_ne_link (ne_link_of_dataAt dataAt_write_self)]
    · rcases link_or_ne_link files q with ⟨next, hnext⟩ | hne
      · rw [follow_of_link hnext, follow_of_link ((write_of_ne hq).trans hnext)]
        exact ih
      · rw [follow_of_ne_link hne, follow_of_ne_link]
        rw [write_of_ne hq]
        exact hne

theorem leads_write (hp : ∀ target, files p ≠ some (.link target)) :
    leads (write files p data) q = leads files q := follow_write hp _

/-- Without a name, chains that end elsewhere than it does are as before. -/
theorem follow_remove {n : ℕ} {r : π} (h : follow files n q = some r)
    (hp : ∀ m ≤ n, follow files m p ≠ some r) :
    follow (Function.update files p none) n q = some r := by
  induction n generalizing q with
  | zero => cases h
  | succ n ih =>
    have hqp : q ≠ p := by
      rintro rfl
      exact hp (n + 1) (Nat.le_refl _) h
    have hsame : Function.update files p none q = files q := Function.update_of_ne hqp _ _
    rcases link_or_ne_link files q with ⟨next, hnext⟩ | hne
    · rw [follow_of_link (hsame.trans hnext)]
      rw [follow_of_link hnext] at h
      exact ih h fun m hm => hp m (Nat.le_succ_of_le hm)
    · rw [follow_of_ne_link (hsame.symm ▸ hne)]
      rw [follow_of_ne_link hne] at h
      exact h

theorem leads_remove {r : π} (h : leads files q = some r) (hp : leads files p ≠ some r) :
    leads (Function.update files p none) q = some r := by
  refine follow_remove h ?_
  intro m hm hfollow
  exact hp (follow_mono hm hfollow)

end Changes

end LinkedFiles
