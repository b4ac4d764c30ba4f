import ElCarro.Instance.Selection
import ElCarro.Lib.Strconv

/-! # The latest Backup before a point in time

The search compares distances of 64 bits. Where the target and the annotations are close
enough to each other, the smallest distance that is not negative belongs to the greatest
point that is not after the target.
-/

namespace ElCarro.Instance

open GoTime K8s Api

section

variable {cat : Catalog} {backups : List Backup} {pitrRestore : PITRRestoreSpec} {target : Int}

/-- The year in its longest form. -/
def leapYear : Duration := 366 * day

/-- The point in time that a Ready Backup is annotated with, on the scale of the request. -/
def readyPoint (cat : Catalog) (pitrRestore : PITRRestoreSpec) (b : Backup) : Option Int :=
  match pitrRestore.timestamp with
  | some _ => readyTime cat b
  | none => readySCN cat b

/-- A request for a point in time within reach of the annotations: a time that is at most 290 years
from each of them, or an SCN that is not the last one, with SCNs that are not negative. -/
inductive Reaches (cat : Catalog) (backups : List Backup) (pitrRestore : PITRRestoreSpec)
    (target : Int) : Prop where
  | time (htarget : pitrRestore.timestamp = some target)
      (hnear : ∀ b ∈ backups, ∀ t ∈ readyTime cat b,
        target - t ≤ 290 * leapYear ∧ t - target ≤ 290 * leapYear)
  | scn (hscn : pitrRestore.timestamp = none) (htarget : cat.parseInt pitrRestore.scn = some target)
      (hrange : 0 ≤ target ∧ target ≤ 2 ^ 63 - 2) (hnonneg : ∀ b ∈ backups, ∀ scn ∈ readySCN cat b,
        0 ≤ scn)

theorem ready_of_readyPoint {b : Backup} {x : Int} (h : readyPoint cat pitrRestore b = some x) :
    conditionStatusEquals (findCondition b.status.conditions .ready) .true := by
  by_contra hready
  unfold readyPoint readyTime readySCN at h
  split at h
  all_goals
    rw [if_neg hready] at h
    cases h

/-- Within reach the distances are differences. -/
theorem Reaches.pitrDistance (hparse : ∀ s, ∀ n ∈ cat.parseInt s, -2 ^ 63 ≤ n ∧ n < 2 ^ 63)
    (h : Reaches cat backups pitrRestore target) {b : Backup} (hb : b ∈ backups) :
    pitrDistance cat pitrRestore b = (readyPoint cat pitrRestore b).map (target - ·) := by
  unfold Instance.pitrDistance readyPoint
  rcases h with ⟨htarget, hnear⟩ | ⟨hscn, htarget, hrange, hnonneg⟩
  · rw [htarget]
    dsimp only
    apply Option.map_congr
    intro t ht
    have hnear := hnear b hb t ht
    have hrange : minDuration ≤ target - t ∧ target - t ≤ maxDuration := by
      unfold leapYear day hour minute second maxDuration minDuration Time Duration at *
      omega
    unfold sub
    rw [min_eq_right hrange.2, max_eq_right hrange.1]
  · rw [hscn, htarget]
    dsimp only [Option.bind_some]
    apply Option.map_congr
    intro scn hmem
    have h0 : 0 ≤ scn := hnonneg b hb scn hmem
    have hlt : scn < 2 ^ 63 := by
      unfold readySCN at hmem
      split at hmem
      · split at hmem
        · cases hmem
        · exact (hparse _ scn hmem).2
      · cases hmem
    rw [int64_eq]
    unfold wraps
    omega

/-- A distance between points within reach is short of the greatest duration. -/
theorem Reaches.lt_max (h : Reaches cat backups pitrRestore target) {b : Backup}
    (hb : b ∈ backups) {x : Int} (hx : readyPoint cat pitrRestore b = some x) :
    target - x < maxDuration := by
  unfold readyPoint at hx
  rcases h with ⟨htarget, hnear⟩ | ⟨hscn, -, hrange, hnonneg⟩
  · rw [htarget] at hx
    have hnear := hnear b hb x hx
    unfold leapYear day hour minute second maxDuration Duration at *
    omega
  · rw [hscn] at hx
    have h0 := hnonneg b hb x hx
    simp only [maxDuration, Duration]
    omega

/-- The points that are not after the target. -/
def pointsBefore (cat : Catalog) (backups : List Backup) (pitrRestore : PITRRestoreSpec)
    (target : Int) : Set Int :=
  {x | ∃ b ∈ backups, readyPoint cat pitrRestore b = some x ∧ x ≤ target}

/-- The search ends with a greatest point before the target, or there is no such point. -/
theorem Reaches.closest (hparse : ∀ s, ∀ n ∈ cat.parseInt s, -2 ^ 63 ≤ n ∧ n < 2 ^ 63)
    (h : Reaches cat backups pitrRestore target) :
    (∃ b ∈ backups, ∃ x, (findPITRBackup cat backups pitrRestore).toOption = some b ∧
        readyPoint cat pitrRestore b = some x ∧
        IsGreatest (pointsBefore cat backups pitrRestore target) x) ∨
      (findPITRBackup cat backups pitrRestore).toOption = none ∧
        pointsBefore cat backups pitrRestore target = ∅ := by
  rw [findPITRBackup_eq]
  have hdist : ∀ b ∈ backups, ∀ x, readyPoint cat pitrRestore b = some x →
      Instance.pitrDistance cat pitrRestore b = some (target - x) := by
    intro b hb x hx
    rw [h.pitrDistance hparse hb, hx]
    rfl
  rcases closest_spec (Instance.pitrDistance cat pitrRestore) backups none maxDuration with
    ⟨heq, hmin⟩ | ⟨b, hb, d, heq, hd, h0, -, hmin⟩
  · right
    use heq
    ext x
    simp only [Set.mem_empty_iff_false, iff_false]
    rintro ⟨b, hb, hx, hle⟩
    have hfar := hmin b hb _ (hdist b hb x hx) (by omega)
    have hlt := h.lt_max hb hx
    omega
  · left
    rw [h.pitrDistance hparse hb] at hd
    obtain ⟨x, hx, rfl⟩ := Option.map_eq_some_iff.mp hd
    refine ⟨b, hb, x, heq, hx, ⟨b, hb, hx, by omega⟩, ?_⟩
    rintro y ⟨b', hb', hy, hle⟩
    have hnear := hmin b' hb' _ (hdist b' hb' y hy) (by omega)
    omega

end

/-- Within reach the search returns a Ready Backup with the greatest point that is not after the
target, and it fails if and only if there is none. -/
theorem findPITRBackup_greatest {cat : Catalog} {backups : List Backup}
    {pitrRestore : PITRRestoreSpec} {target : Int}
    (hparse : ∀ s, ∀ n ∈ cat.parseInt s, -2 ^ 63 ≤ n ∧ n < 2 ^ 63)
    (h : Reaches cat backups pitrRestore target) :
    (∀ b, findPITRBackup cat backups pitrRestore = .ok b →
      b ∈ backups ∧
        conditionStatusEquals (findCondition b.status.conditions .ready) .true ∧
        ∃ x, readyPoint cat pitrRestore b = some x ∧
          IsGreatest {y | ∃ b' ∈ backups, readyPoint cat pitrRestore b' = some y ∧ y ≤ target} x) ∧
      ((∃ err, findPITRBackup cat backups pitrRestore = .error err) ↔
        ¬ ∃ b ∈ backups, ∃ x, readyPoint cat pitrRestore b = some x ∧ x ≤ target) := by
  rcases h.closest hparse with ⟨b, hb, x, heq, hx, hgreatest⟩ | ⟨hnone, hempty⟩
  · cases hfound : findPITRBackup cat backups pitrRestore with
    | error err =>
      rw [hfound] at heq
      cases heq
    | ok b' =>
      rw [hfound] at heq
      obtain rfl : b' = b := Option.some.inj heq
      constructor
      · rintro _ ⟨⟩
        exact ⟨hb, ready_of_readyPoint hx, x, hx, hgreatest⟩
      · constructor
        · rintro ⟨_, ⟨⟩⟩
        · intro hno
          exact absurd ⟨b', hb, x, hx, hgreatest.1.elim fun _ h => h.2.2⟩ hno
  · cases hfound : findPITRBackup cat backups pitrRestore with
    | ok b =>
      rw [hfound] at hnone
      cases hnone
    | error err =>
      constructor
      · rintro _ ⟨⟩
      · refine ⟨fun _ => ?_, fun _ => ⟨err, rfl⟩⟩
        rintro ⟨b, hb, x, hx, hle⟩
        have hmem : x ∈ pointsBefore cat backups pitrRestore target := ⟨b, hb, hx, hle⟩
        rw [hempty] at hmem
        exact hmem

section Witness

/-- A Backup with an SCN, Ready or not. -/
def scnBackup (name scn : String) (status : CondStatus) : Backup where
  ns := "db"
  name := name
  labels := ∅
  annotations := (∅ : StrMap).insert scnAnnotation scn
  creationTimestamp := 0
  deletionTimestamp := none
  type := .physical
  status := ⟨.succeeded, [⟨.ready, status, .backupReady, "", 0⟩], name⟩
  createdBy := none

def scnBackups : List Backup :=
  [scnBackup "late" "900" .true, scnBackup "first" "100" .true, scnBackup "broken" "4O0" .true,
    scnBackup "running" "450" .false, scnBackup "latest" "400" .true]

def scnCatalog : Catalog :=
  ⟨scnBackups, [], readStamp, Strconv.parseInt, none, none, none, none⟩

def scnRequest : PITRRestoreSpec := ⟨"", none, "500", none⟩

end Witness

/-- An SCN of 500 is reached from the Backup at 400: that at 900 is after it, and that at 450 is
not Ready. -/
theorem scn_reached_from_400 :
    (∀ s, ∀ n ∈ scnCatalog.parseInt s, -2 ^ 63 ≤ n ∧ n < 2 ^ 63) ∧
      Reaches scnCatalog scnBackups scnRequest 500 ∧
      findPITRBackup scnCatalog scnBackups scnRequest = .ok (scnBackup "latest" "400" .true) ∧
      IsGreatest {y | ∃ b' ∈ scnBackups, readyPoint scnCatalog scnRequest b' = some y ∧ y ≤ 500}
        400 := by
  have hparse : ∀ s, ∀ n ∈ scnCatalog.parseInt s, -2 ^ 63 ≤ n ∧ n < 2 ^ 63 :=
    fun s n h => Strconv.parseInt_range h
  have hreaches : Reaches scnCatalog scnBackups scnRequest 500 :=
    .scn rfl (by decide) (by decide) (by decide)
  have hfound : findPITRBackup scnCatalog scnBackups scnRequest =
      .ok (scnBackup "latest" "400" .true) := rfl
  obtain ⟨-, -, x, hx, hgreatest⟩ := (findPITRBackup_greatest hparse hreaches).1 _ hfound
  have hpoint : readyPoint scnCatalog scnRequest (scnBackup "latest" "400" .true) = some 400 := by
    decide
  obtain rfl : (400 : Int) = x := Option.some.inj (hpoint.symm.trans hx)
  exact ⟨hparse, hreaches, hfound, hgreatest⟩

end ElCarro.Instance
