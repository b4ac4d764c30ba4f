import ElCarro.Instance.Selection

/-! # Backups along the history of a database

A database that is opened after an incomplete recovery starts a new incarnation, which
branches off its parent at the point of the recovery. A restore to a point on a branch
can only use what was taken on the way to that point. The search goes by labels and
distances and knows no branch points.
-/

namespace ElCarro.Instance

open GoTime K8s Api

section History

structure BranchPoint where
  time : Time
  scn : Int
  deriving DecidableEq, Repr

/-- The incarnations with their parents and the points at which they have branched off. -/
structure Lineage where
  parent : String → Option (String × BranchPoint)
  depth : String → Nat
  descends : ∀ i a point, parent i = some (a, point) → depth a < depth i

/-- The branch of an incarnation has left an ancestor at a point. -/
inductive Lineage.Left (lineage : Lineage) : String → String → BranchPoint → Prop where
  | parent {i a : String} {point : BranchPoint} (hp : lineage.parent i = some (a, point)) :
      Left lineage i a point
  | ancestor {i c a : String} {point point' : BranchPoint}
      (hp : lineage.parent i = some (c, point')) (hc : Left lineage c a point) :
      Left lineage i a point

end History

section Property

variable (cat : Catalog) (pitrRestore : PITRRestoreSpec)

/-- The target of a request, as a time or as an SCN. -/
def targetPoint : Option Int :=
  match pitrRestore.timestamp with
  | some t => some t
  | none => cat.parseInt pitrRestore.scn

/-- Where a Backup that is Ready lies, as a time or as an SCN. -/
def pitrPoint (b : Backup) : Option Int :=
  if pitrRestore.timestamp.isSome then readyTime cat b else readySCN cat b

def BranchPoint.coordinate (point : BranchPoint) : Int :=
  if pitrRestore.timestamp.isSome then point.time else point.scn

/-- The Backup lies on the way to the target in an incarnation. -/
def OnTheWay (lineage : Lineage) (incarnation : String) (b : Backup) : Prop :=
  ∃ target ∈ targetPoint cat pitrRestore, ∃ t ∈ pitrPoint cat pitrRestore b, t ≤ target ∧
    (valueAt b.labels incarnationLabel = incarnation ∨
      ∃ point, lineage.Left incarnation (valueAt b.labels incarnationLabel) point ∧
        t ≤ point.coordinate pitrRestore)

/-- What is found lies on the way to the target. -/
def FindsOnTheWay (lineage : Lineage) (inst : Instance) : Prop :=
  ∀ p b, findRestorePITR cat inst pitrRestore = .ok p →
    findPITRBackupForRestore cat inst pitrRestore = .ok b →
      OnTheWay cat pitrRestore lineage (targetIncarnation inst pitrRestore p) b

/-- Whatever the search may take off the way is outdone by something on it. -/
def KeepsToTheWay (lineage : Lineage) (inst : Instance) : Prop :=
  ∀ p, Searched cat pitrRestore inst p →
    PrevailsIn cat pitrRestore p (targetIncarnation inst pitrRestore p)
      (OnTheWay cat pitrRestore lineage (targetIncarnation inst pitrRestore p))

end Property

section Search

variable {cat : Catalog} {pitrRestore : PITRRestoreSpec} {inst : Instance} {p : PITR} {b : Backup}

/--
For every set of Backups over any history and every target, the Backup of a restore to a point in
time lies on the way to that point if and only if whatever the search may take off the way is
farther from the target than something on it.
-/
theorem findsOnTheWay_iff (cat : Catalog) (lineage : Lineage) (inst : Instance)
    (pitrRestore : PITRRestoreSpec) :
    FindsOnTheWay cat pitrRestore lineage inst ↔ KeepsToTheWay cat pitrRestore lineage inst := by
  constructor
  · intro h p hsearched
    cases hres : findPITRBackupForRestore cat inst pitrRestore with
    | ok b =>
      have hway := h p b hsearched.pitr hres
      exact (prevailsIn_iff hres).mpr hway p (by rw [hsearched.pitr]; rfl)
    | error e => exact prevailsIn_of_error hsearched hres
  · intro h p b hp hb
    obtain ⟨p', hsearched⟩ := searched_of_ok hb
    obtain rfl := Except.ok.inj (hp.symm.trans hsearched.pitr)
    apply (prevailsIn_iff hb).mp
    intro p' hp'
    rw [hp] at hp'
    obtain rfl := Option.some.inj hp'
    exact h p hsearched

theorem pitrDistance_of_time {target : Time} {d : Int} (ht : pitrRestore.timestamp = some target)
    (hd : pitrDistance cat pitrRestore b = some d) :
    ∃ t, pitrPoint cat pitrRestore b = some t ∧ d = sub target t := by
  unfold pitrDistance at hd
  unfold pitrPoint
  rw [ht] at hd ⊢
  obtain ⟨t, htime, rfl⟩ := Option.map_eq_some_iff.mp hd
  exact ⟨t, htime, rfl⟩

/-- What is taken before something on the way, in the same incarnation, is on the way. -/
theorem OnTheWay.earlier {lineage : Lineage} {incarnation : String} {x y : Backup} {t u : Int}
    (h : OnTheWay cat pitrRestore lineage incarnation y)
    (hlabel : valueAt x.labels incarnationLabel = valueAt y.labels incarnationLabel)
    (hx : pitrPoint cat pitrRestore x = some t) (hy : pitrPoint cat pitrRestore y = some u)
    (hle : t ≤ u) : OnTheWay cat pitrRestore lineage incarnation x := by
  obtain ⟨target, htarget, u', hu', hbefore, hway⟩ := h
  obtain rfl := Option.some.inj (hy.symm.trans hu')
  refine ⟨target, htarget, t, hx, hle.trans hbefore, ?_⟩
  rw [hlabel]
  exact hway.imp_right fun ⟨point, hleft, hpoint⟩ => ⟨point, hleft, hle.trans hpoint⟩

/-- For a target that is a time, nothing off the way is outdone: it lies after all that is on it. -/
theorem prevails_onTheWay_iff {lineage : Lineage} {incarnation label : String} {backups : List Backup}
    {target : Time} (ht : pitrRestore.timestamp = some target)
    (hlabel : ∀ x ∈ backups, valueAt x.labels incarnationLabel = label) :
    Prevails (pitrDistance cat pitrRestore) (OnTheWay cat pitrRestore lineage incarnation) backups ↔
      ∀ x ∈ backups, ∀ d ∈ pitrDistance cat pitrRestore x, 0 ≤ d → d < maxDuration →
        OnTheWay cat pitrRestore lineage incarnation x := by
  constructor
  · intro h x hx d hd h0 hlt
    obtain ⟨i, hi⟩ := List.mem_iff_getElem?.mp hx
    have hxi : (x, i) ∈ backups.zipIdx := List.mem_zipIdx_iff_getElem?.mpr hi
    rcases h (x, i) hxi d hd h0 hlt with hway | ⟨⟨y, j⟩, hyj, hway, d', hd', h0', hless⟩
    · exact hway
    · have hy := List.mem_of_getElem? (List.mem_zipIdx_iff_getElem?.mp hyj)
      obtain ⟨t, hxt, rfl⟩ := pitrDistance_of_time ht hd
      obtain ⟨u, hyu, rfl⟩ := pitrDistance_of_time ht hd'
      have hle : sub target u ≤ sub target t := hless.elim (·.le) fun h => h.1.le
      have htu : t ≤ u := le_of_sub_le_sub (hle.trans_lt hlt) (sub_nonneg_iff.mp h0) hle
      exact hway.earlier ((hlabel x hx).trans (hlabel y hy).symm) hxt hyu htu
  · intro h x hx d hd h0 hlt
    exact .inl (h x.1 (List.mem_of_getElem? (List.mem_zipIdx_iff_getElem?.mp hx)) d hd h0 hlt)

end Search

section Sample

/-- The second incarnation has left the first one 15 seconds after its start. -/
def twoIncarnations : Lineage where
  parent i := if i = "2" then some ("1", ⟨15 * second, 150⟩) else none
  depth i := if i = "2" then 1 else 0
  descends := by
    intro i a point h
    split at h
    · next hi =>
      obtain ⟨rfl, -⟩ := Prod.mk.inj (Option.some.inj h)
      rw [if_pos hi]
      decide
    · cases h

theorem left_twoIncarnations {point : BranchPoint} (h : twoIncarnations.Left "2" "1" point) :
    point = ⟨15 * second, 150⟩ := by
  cases h with
  | parent hp =>
    obtain ⟨-, rfl⟩ := Prod.mk.inj (Option.some.inj hp)
    rfl
  | ancestor hp hc =>
    obtain ⟨rfl, -⟩ := Prod.mk.inj (Option.some.inj hp)
    cases hc with
    | parent hp' => cases hp'
    | ancestor hp' => cases hp'

/-- Two Backups of the first incarnation and one of the second, taken on its branch. -/
def branchedCatalog : Catalog :=
  windowCatalog [windowBackup "before" "1970-01-01T00:00:10Z" "1" "old",
    windowBackup "after" "1970-01-01T00:00:20Z" "1" "old",
    windowBackup "branch" "1970-01-01T00:00:40Z" "2" "old"]

/-- A point on the branch before the Backup there. -/
def branchTarget : PITRRestoreSpec := ⟨"2", some (30 * second), "", none⟩

/-- The Backup of the parent that was taken after the branch is nearer, and is chosen. -/
theorem backup_after_the_branch_found :
    ¬ FindsOnTheWay branchedCatalog branchTarget twoIncarnations (Instance.blank "db" "mydb") := by
  intro h
  have hfound : findPITRBackupForRestore branchedCatalog (Instance.blank "db" "mydb") branchTarget =
      .ok (windowBackup "after" "1970-01-01T00:00:20Z" "1" "old") := by
    decide +kernel
  have hpoint : pitrPoint branchedCatalog branchTarget
      (windowBackup "after" "1970-01-01T00:00:20Z" "1" "old") = some (20 * second) := by
    decide +kernel
  have hlabel : valueAt (windowBackup "after" "1970-01-01T00:00:20Z" "1" "old").labels
      incarnationLabel = "1" := by
    decide +kernel
  obtain ⟨target, htarget, t, ht, -, hway⟩ := h _ _ rfl hfound
  obtain rfl := Option.some.inj (hpoint.symm.trans ht)
  rw [hlabel] at hway
  rcases hway with hsame | ⟨point, hleft, hle⟩
  · exact absurd hsame (by decide)
  · obtain rfl := left_twoIncarnations hleft
    exact absurd hle (by decide)

end Sample

end ElCarro.Instance
