import Mathlib.Data.List.TakeWhile
import Mathlib.Order.Defs.Unbundled
import ElCarro.BackupSchedule.Ownership

/-! # What the retention count keeps

The Backups are arranged from the newest to the oldest, and those behind the last success
that counts are deleted in this order, until a delete fails.
-/

namespace ElCarro.BackupSchedule

open GoTime K8s Api Cron

def Succeeded (b : Backup) : Prop := b.status.phase = .succeeded

instance : DecidablePred Succeeded := fun b => inferInstanceAs (Decidable (b.status.phase = _))

/-- `sort.Slice` leaves nothing before an element that is less. -/
def Libs.Sorts (lib : Libs) : Prop :=
  ∀ less items, IsStrictWeakOrder Backup (fun i j => less i j = true) →
    (lib.sort less items).Pairwise fun i j => less j i = false

/-- The Backups that succeeded calls have deleted, in their order. -/
def deletedBackups (calls : List Call) : List Backup :=
  calls.filterMap fun call =>
    match call with
    | .deleteBackup backup true => some backup
    | _ => none

/-- A list in two parts, the first one up to the success that completes the count. -/
inductive Cut (count : Int) : List Backup → List Backup → Prop where
  | few {kept : List Backup} (h : (kept.countP Succeeded : Int) < count) : Cut count kept []
  | behind {kept rest : List Backup} {b : Backup} (hb : Succeeded b)
      (h : (kept.countP Succeeded : Int) + 1 = count) : Cut count (kept ++ [b]) rest

/-- The part behind the cut is deleted as far as the deletes succeed. -/
def Pruned (env : Env) (max : Int) (sorted : List Backup) (calls : List Call)
    (err : Option ApiError) : Prop :=
  ∃ kept rest, sorted = kept ++ rest ∧ Cut max kept rest ∧
    ((∀ b ∈ rest, env.deleteErr b = none) → deletedBackups calls = rest ∧ err = none) ∧
    ((∃ b ∈ rest, env.deleteErr b ≠ none) → deletedBackups calls <+: rest ∧ err ≠ none)

section Sorted

variable {lib : Libs} {c : Cluster} {cron : CronAnything}

theorem isStrictWeakOrder_newer :
    IsStrictWeakOrder Backup
      (fun i j => decide (j.creationTimestamp < i.creationTimestamp) = true) where
  irrefl i := by simp
  trans i j k hij hjk := by
    simp only [decide_eq_true_eq] at hij hjk ⊢
    exact hjk.trans hij
  incomp_trans i j k hij hjk := by
    simp only [decide_eq_true_eq, not_lt] at hij hjk ⊢
    exact ⟨hij.1.trans hjk.1, hjk.2.trans hij.2⟩

/-- The newest Backup comes first. -/
theorem getSortedBackupsForCron_pairwise (hsorts : lib.Sorts) :
    (getSortedBackupsForCron lib c cron).Pairwise fun i j =>
      j.creationTimestamp ≤ i.creationTimestamp := by
  apply (hsorts _ (c.listBackups cron.name) isStrictWeakOrder_newer).imp
  intro i j h
  simpa using h

end Sorted

section Loop

variable {env : Env} {backups : List Backup} {count : Int}

/-- Once the count is used up, Backups are deleted up to the first error. -/
theorem pruneLoop_of_nonpos (env : Env) (backups : List Backup) (hcount : count ≤ 0) :
    deletedBackups (pruneLoop env count backups).1 =
        backups.takeWhile (fun b => env.deleteErr b = none) ∧
      (pruneLoop env count backups).2 = backups.findSome? env.deleteErr := by
  induction backups with
  | nil => exact ⟨rfl, rfl⟩
  | cons b rest ih =>
    have hsame : (if b.status.phase = .succeeded ∧ 0 < count then count - 1 else count) = count :=
      if_neg fun h => absurd h.2 (not_lt.mpr hcount)
    rw [pruneLoop, if_pos hcount]
    dsimp only
    rw [hsame]
    cases herr : env.deleteErr b with
    | some err => simp [deletedBackups, herr]
    | none =>
      have hdel : deletedBackups (.deleteBackup b true :: (pruneLoop env count rest).1) =
          b :: deletedBackups (pruneLoop env count rest).1 := rfl
      simp [herr, hdel, ih.1, ih.2]

/-- One Backup more before the cut. -/
theorem Cut.cons {kept rest : List Backup} {count' : Int} (h : Cut count kept rest) (b : Backup)
    (heq : count' = count + if Succeeded b then 1 else 0) : Cut count' (b :: kept) rest := by
  have hcons : ∀ l : List Backup, ((b :: l).countP Succeeded : Int) =
      l.countP Succeeded + if Succeeded b then 1 else 0 := by
    intro l
    by_cases hb : Succeeded b <;> simp [hb]
  rw [heq]
  rcases h with h | ⟨hlast, h⟩
  · exact .few (by rw [hcons]; omega)
  · rw [← List.cons_append]
    exact .behind hlast (by rw [hcons]; omega)

/-- Up to the cut the loop only counts. -/
theorem exists_cut_pruneLoop (env : Env) (backups : List Backup) (hcount : 0 < count) :
    ∃ kept rest, backups = kept ++ rest ∧ Cut count kept rest ∧
      pruneLoop env count backups = pruneLoop env 0 rest := by
  induction backups generalizing count with
  | nil => exact ⟨[], [], rfl, .few (by simpa using hcount), by simp [pruneLoop]⟩
  | cons b rest ih =>
    rw [pruneLoop, if_neg (not_le.mpr hcount)]
    by_cases hb : Succeeded b
    · have hphase : b.status.phase = .succeeded := hb
      rw [if_pos ⟨hphase, hcount⟩]
      rcases (Int.add_one_le_of_lt hcount).eq_or_lt with hone | hmore
      · -- the success that completes the count
        obtain rfl : count = 1 := by omega
        have hcut : Cut 1 ([] ++ [b]) rest := .behind hb (by simp)
        exact ⟨[b], rest, rfl, hcut, rfl⟩
      · obtain ⟨kept, tail, rfl, hcut, hloop⟩ := ih (show 0 < count - 1 by omega)
        exact ⟨b :: kept, tail, rfl, hcut.cons b (by rw [if_pos hb]; omega), hloop⟩
    · rw [if_neg fun h => hb h.1]
      obtain ⟨kept, tail, rfl, hcut, hloop⟩ := ih hcount
      exact ⟨b :: kept, tail, rfl, hcut.cons b (by rw [if_neg hb]; omega), hloop⟩

theorem pruned_pruneBackups (hcount : 1 ≤ count) :
    Pruned env count backups (pruneBackups env count backups).1
      (pruneBackups env count backups).2 := by
  have hloop : pruneBackups env count backups = pruneLoop env count backups :=
    if_neg (by omega)
  obtain ⟨kept, rest, heq, hcut, hrest⟩ := exists_cut_pruneLoop env backups
    (show 0 < count by omega)
  obtain ⟨hdeleted, herr⟩ := pruneLoop_of_nonpos env rest (Int.le_refl 0)
  rw [hloop, hrest]
  refine ⟨kept, rest, heq, hcut, ?_, ?_⟩
  · intro hall
    rw [hdeleted, herr]
    refine ⟨?_, List.findSome?_eq_none_iff.mpr hall⟩
    rw [List.takeWhile_eq_self_iff]
    simpa using hall
  · rintro ⟨b, hb, hne⟩
    rw [hdeleted, herr]
    refine ⟨List.takeWhile_prefix _, fun hnone => ?_⟩
    exact hne (List.findSome?_eq_none_iff.mp hnone b hb)

end Loop

/--
With a count of at least one, the Backups of a cron are arranged from the newest to the oldest and
those behind the last success that counts are deleted: all of them, or those before the first
delete that fails, with an error.
-/
theorem prunes_behind_retention (lib : Libs) (hsorts : lib.Sorts) (env : Env) (c : Cluster)
    (cron : CronAnything) (max : Int) (hmax : 1 ≤ max) :
    (getSortedBackupsForCron lib c cron).Perm (c.listBackups cron.name) ∧
      ((getSortedBackupsForCron lib c cron).Pairwise fun i j =>
        j.creationTimestamp ≤ i.creationTimestamp) ∧
      Pruned env max (getSortedBackupsForCron lib c cron)
        (pruneBackups env max (getSortedBackupsForCron lib c cron)).1
        (pruneBackups env max (getSortedBackupsForCron lib c cron)).2 :=
  ⟨lib.sort_perm _ _, getSortedBackupsForCron_pairwise hsorts, pruned_pruneBackups hmax⟩

section Samples

theorem plainLibs_sorts : plainLibs.Sorts := by
  intro less items hless
  have htotal : ∀ a b, less b a = false ∨ less a b = false := by
    intro a b
    by_contra h
    simp only [not_or, Bool.not_eq_false] at h
    exact hless.irrefl _ (hless.trans _ _ _ h.1 h.2)
  have htrans : ∀ a b d, less b a = false → less d b = false → less d a = false := by
    intro a b d hba hdb
    by_contra hda
    rw [Bool.not_eq_false] at hda
    -- otherwise `a` and `b`, and also `b` and `d`, would not differ
    have hab : ¬ less a b = true := fun h => by simp [hless.trans _ _ _ hda h] at hdb
    have hbd : ¬ less b d = true := fun h => by simp [hless.trans _ _ _ h hda] at hba
    exact (hless.incomp_trans a b d ⟨hab, by simp [hba]⟩ ⟨hbd, by simp [hdb]⟩).2 hda
  have : Std.Total fun a b : Backup => less b a = false := ⟨htotal⟩
  have : IsTrans Backup fun a b => less b a = false := ⟨htrans⟩
  exact List.pairwise_insertionSort _ items

/-- Deletes that fail for a Backup of the first second. -/
def stuckEnv : Env :=
  { quietEnv with deleteErr := fun b => if b.creationTimestamp = 1 then some .conflict else none }

/-- Three Backups, listed in any order. -/
def threeBackups : Cluster :=
  ⟨[nightly], [nightlyCronAnything], [nightlyBackup "team-a" 2, nightlyBackup "team-b" 1,
    nightlyBackup "team-c" 3]⟩

theorem two_of_three_pruned :
    1 ≤ retentionCount nightly ∧
      Pruned stuckEnv (retentionCount nightly)
        (getSortedBackupsForCron plainLibs threeBackups nightlyCronAnything)
        (pruneBackups stuckEnv (retentionCount nightly)
          (getSortedBackupsForCron plainLibs threeBackups nightlyCronAnything)).1
        (pruneBackups stuckEnv (retentionCount nightly)
          (getSortedBackupsForCron plainLibs threeBackups nightlyCronAnything)).2 :=
  ⟨by decide, (prunes_behind_retention plainLibs plainLibs_sorts stuckEnv threeBackups
    nightlyCronAnything (retentionCount nightly) (by decide)).2.2⟩

example : (pruneBackups stuckEnv 1
    (getSortedBackupsForCron plainLibs threeBackups nightlyCronAnything)) =
    ([.deleteBackup (nightlyBackup "team-a" 2) true, .deleteBackup (nightlyBackup "team-b" 1) false],
      some .conflict) := by decide

end Samples

end ElCarro.BackupSchedule
