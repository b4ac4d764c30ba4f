import ElCarro.Instance.FindBackup

/-! # The Backup nearest to a point in time

The search takes the first of the Backups that lie nearest before the target. It has
a property if every candidate without the property is outdone by one that has it.
-/

namespace ElCarro.Instance

open GoTime K8s Api

section Nearest

/-- The first of the nearest elements, with its position. -/
structure Nearest (distance : Backup → Option Int) (backups : List Backup) (i : Nat) (b : Backup)
    (d : Int) : Prop where
  listed : backups[i]? = some b
  measured : distance b = some d
  nonneg : 0 ≤ d
  first : ∀ (j : Nat) x d', backups[j]? = some x → distance x = some d' → 0 ≤ d' →
    d < d' ∨ d = d' ∧ i ≤ j

variable {distance : Backup → Option Int} {backups : List Backup} {a b : Backup}
  {S : Backup → Prop}

theorem Nearest.cons {i : Nat} {d : Int} (h : Nearest distance backups i b d)
    (ha : ∀ d', distance a = some d' → 0 ≤ d' → d < d') :
    Nearest distance (a :: backups) (i + 1) b d := by
  refine ⟨h.listed, h.measured, h.nonneg, ?_⟩
  intro j x d' hj hx h0
  cases j with
  | zero =>
    obtain rfl : a = x := Option.some.inj hj
    exact .inl (ha d' hx h0)
  | succ j => exact (h.first j x d' hj hx h0).imp_right fun h => ⟨h.1, Nat.succ_le_succ h.2⟩

theorem Nearest.head {d : Int} (ha : distance a = some d) (h0 : 0 ≤ d)
    (hmin : ∀ x ∈ backups, ∀ d', distance x = some d' → 0 ≤ d' → d ≤ d') :
    Nearest distance (a :: backups) 0 a d := by
  refine ⟨rfl, ha, h0, ?_⟩
  intro j x d' hj hx h0'
  have hle : d ≤ d' := by
    cases j with
    | zero =>
      obtain rfl : a = x := Option.some.inj hj
      rw [ha] at hx
      exact (Option.some.inj hx).le
    | succ j => exact hmin x (List.mem_of_getElem? hj) d' hx h0'
  exact hle.lt_or_eq.imp_right fun heq => ⟨heq, Nat.zero_le j⟩

/-- The loop ends with the first of the nearest elements, or with what it had. -/
theorem closest_first {backup : Option Backup} {best : Int}
    (h : closest distance backups backup best = some b) :
    (backup = some b ∧ ∀ x ∈ backups, ∀ d, distance x = some d → 0 ≤ d → best ≤ d) ∨
      ∃ i d, d < best ∧ Nearest distance backups i b d := by
  induction backups generalizing backup best with
  | nil => exact .inl ⟨h, by simp⟩
  | cons a rest ih =>
    unfold closest at h
    cases hd : distance a with
    | none =>
      rw [hd] at h
      rcases ih h with ⟨heq, hmin⟩ | ⟨i, d, hlt, hnearest⟩
      · refine .inl ⟨heq, ?_⟩
        simp only [List.forall_mem_cons, hd]
        exact ⟨by simp, hmin⟩
      · exact .inr ⟨i + 1, d, hlt, hnearest.cons (by simp [hd])⟩
    | some da =>
      rw [hd] at h
      dsimp only at h
      split at h
      · next hnear =>
        rcases ih h with ⟨heq, hmin⟩ | ⟨i, d, hlt, hnearest⟩
        · obtain rfl := Option.some.inj heq
          exact .inr ⟨0, da, hnear.2, .head hd hnear.1 hmin⟩
        · refine .inr ⟨i + 1, d, hlt.trans hnear.2, hnearest.cons ?_⟩
          intro d' hd' _
          obtain rfl := Option.some.inj (hd.symm.trans hd')
          exact hlt
      · next hfar =>
        have hbest : ∀ d', distance a = some d' → 0 ≤ d' → best ≤ d' := by
          intro d' hd' h0
          obtain rfl := Option.some.inj (hd.symm.trans hd')
          exact Int.not_lt.mp fun hlt => hfar ⟨h0, hlt⟩
        rcases ih h with ⟨heq, hmin⟩ | ⟨i, d, hlt, hnearest⟩
        · exact .inl ⟨heq, List.forall_mem_cons.mpr ⟨hbest, hmin⟩⟩
        · refine .inr ⟨i + 1, d, hlt, hnearest.cons ?_⟩
          exact fun d' hd' h0 => hlt.trans_le (hbest d' hd' h0)

/-- Every candidate has the property, or is farther away than one that has it, or as far and listed
after it. -/
def Prevails (distance : Backup → Option Int) (S : Backup → Prop) (backups : List Backup) : Prop :=
  ∀ x ∈ backups.zipIdx, ∀ d ∈ distance x.1, 0 ≤ d → d < maxDuration →
    S x.1 ∨ ∃ y ∈ backups.zipIdx, S y.1 ∧
      ∃ d' ∈ distance y.1, 0 ≤ d' ∧ (d' < d ∨ d' = d ∧ y.2 < x.2)

theorem prevails_iff (h : closest distance backups none maxDuration = some b) :
    Prevails distance S backups ↔ S b := by
  obtain ⟨i, d, hlt, hnearest⟩ := (closest_first h).resolve_left fun h => by cases h.1
  have hb : (b, i) ∈ backups.zipIdx := List.mem_zipIdx_iff_getElem?.mpr hnearest.listed
  constructor
  · intro hp
    rcases hp _ hb d hnearest.measured hnearest.nonneg hlt with hS | ⟨y, hy, -, d', hd', h0, hless⟩
    · exact hS
    · exfalso
      have hfirst := hnearest.first y.2 y.1 d' (List.mem_zipIdx_iff_getElem?.mp hy) hd' h0
      omega
  · intro hS x hx d' hd' h0 _
    have hx := List.mem_zipIdx_iff_getElem?.mp hx
    rcases hnearest.first x.2 x.1 d' hx hd' h0 with hfar | ⟨rfl, hle⟩
    · exact .inr ⟨_, hb, hS, d, hnearest.measured, hnearest.nonneg, .inl hfar⟩
    · rcases hle.lt_or_eq with hafter | heq
      · exact .inr ⟨_, hb, hS, d, hnearest.measured, hnearest.nonneg, .inr ⟨rfl, hafter⟩⟩
      · left
        rw [← heq, hnearest.listed] at hx
        rw [← Option.some.inj hx]
        exact hS

end Nearest

section Search

variable {cat : Catalog} {inst : Instance} {pitrRestore : PITRRestoreSpec} {p : PITR} {b : Backup}
  {S : Backup → Prop}

/-- How far a Backup that is Ready lies before the target. -/
def pitrDistance (cat : Catalog) (pitrRestore : PITRRestoreSpec) (b : Backup) : Option Int :=
  match pitrRestore.timestamp with
  | some target => (readyTime cat b).map fun t => sub target t
  | none => (cat.parseInt pitrRestore.scn).bind fun target =>
      (readySCN cat b).map fun scn => int64 (target - scn)

theorem closest_none {distance : Backup → Option Int} {backups : List Backup} {best : Int}
    (h : ∀ x ∈ backups, distance x = none) : closest distance backups none best = none := by
  induction backups with
  | nil => rfl
  | cons a rest ih =>
    unfold closest
    rw [h a List.mem_cons_self]
    exact ih fun x hx => h x (List.mem_cons_of_mem _ hx)

theorem findPITRBackup_eq (pitrRestore : PITRRestoreSpec) (backups : List Backup) :
    (findPITRBackup cat backups pitrRestore).toOption =
      closest (pitrDistance cat pitrRestore) backups none maxDuration := by
  unfold findPITRBackup pitrDistance
  split
  · next h =>
    rw [h]
    rfl
  · cases pitrRestore.timestamp with
    | some target =>
      dsimp only
      unfold findPITRBackupBasedonTimestamp
      cases closest (fun b => (readyTime cat b).map fun t => sub target t) backups none
          maxDuration <;> rfl
    | none =>
      dsimp only
      cases cat.parseInt pitrRestore.scn with
      | none => exact (closest_none fun _ _ => rfl).symm
      | some target =>
        dsimp only [Option.bind_some]
        unfold findPITRBackupBasedonSCN
        cases closest (fun b => (readySCN cat b).map fun scn => int64 (target - scn)) backups none
          maxDuration <;> rfl

/-- No Backup lies before the target. -/
def NoCandidate (distance : Backup → Option Int) (backups : List Backup) : Prop :=
  ∀ b ∈ backups, ∀ d ∈ distance b, 0 ≤ d → maxDuration ≤ d

/-- The property prevails among the Backups of the target incarnation, and among those of its parent
if none of the former lies before the target. -/
structure PrevailsIn (cat : Catalog) (pitrRestore : PITRRestoreSpec) (p : PITR)
    (incarnation : String) (S : Backup → Prop) : Prop where
  target : Prevails (pitrDistance cat pitrRestore) S (pitrBackups cat p incarnation)
  parent : NoCandidate (pitrDistance cat pitrRestore) (pitrBackups cat p incarnation) →
    ∀ first ∈ (pitrBackups cat p incarnation).head?,
      Prevails (pitrDistance cat pitrRestore) S
        (pitrBackups cat p (valueAt first.labels parentIncarnationLabel))

theorem noCandidate_of_closest {distance : Backup → Option Int} {backups : List Backup}
    (h : closest distance backups none maxDuration = none) : NoCandidate distance backups := by
  rcases closest_spec distance backups none maxDuration with ⟨-, hmin⟩ | ⟨b, -, d, heq, -⟩
  · exact fun b hb d hd h0 => hmin b hb d hd h0
  · rw [h] at heq
    cases heq

theorem closest_of_noCandidate {distance : Backup → Option Int} {backups : List Backup}
    (h : NoCandidate distance backups) : closest distance backups none maxDuration = none := by
  rcases closest_spec distance backups none maxDuration with
    ⟨heq, -⟩ | ⟨b, hb, d, -, hd, h0, hlt, -⟩
  · exact heq
  · exact absurd hlt (Int.not_lt.mpr (h b hb d hd h0))

/-- Without a candidate anything prevails. -/
theorem NoCandidate.prevails {distance : Backup → Option Int} {backups : List Backup}
    (h : NoCandidate distance backups) : Prevails distance S backups := by
  intro x hx d hd h0 hlt
  have hmem := List.mem_of_getElem? (List.mem_zipIdx_iff_getElem?.mp hx)
  exact absurd hlt (Int.not_lt.mpr (h x.1 hmem d hd h0))

/-- The search is carried out: the request has one kind of target, and the objects are listed. -/
structure Searched (cat : Catalog) (pitrRestore : PITRRestoreSpec) (inst : Instance) (p : PITR) :
    Prop where
  target : pitrRestore.scn ≠ "" ∨ pitrRestore.timestamp ≠ none
  single : pitrRestore.scn = "" ∨ pitrRestore.timestamp = none
  pitr : findRestorePITR cat inst pitrRestore = .ok p
  listed : cat.listBackupsErr = none

theorem searched_of_ok (h : findPITRBackupForRestore cat inst pitrRestore = .ok b) :
    ∃ p, Searched cat pitrRestore inst p := by
  unfold findPITRBackupForRestore at h
  split at h
  · cases h
  · next htarget =>
    split at h
    · cases h
    · next hsingle =>
      split at h
      · cases h
      · next p hp =>
        split at h
        · cases h
        · next hlist => exact ⟨p, by tauto, by tauto, hp, hlist⟩

/-- Without an error the search ends with the nearest Backup, or with the nearest one of the parent. -/
theorem findPITRBackupForRestore_of_searched (h : Searched cat pitrRestore inst p) :
    (findPITRBackupForRestore cat inst pitrRestore).toOption =
      (pitrBackups cat p (targetIncarnation inst pitrRestore p)).head?.bind fun first =>
        (closest (pitrDistance cat pitrRestore)
          (pitrBackups cat p (targetIncarnation inst pitrRestore p)) none maxDuration).or
        (closest (pitrDistance cat pitrRestore)
          (pitrBackups cat p (valueAt first.labels parentIncarnationLabel)) none maxDuration) := by
  unfold findPITRBackupForRestore
  rw [if_neg, if_neg, h.pitr]
  · dsimp only
    rw [h.listed]
    dsimp only
    cases pitrBackups cat p (targetIncarnation inst pitrRestore p) with
    | nil => rfl
    | cons first rest =>
      dsimp only [List.head?_cons, Option.bind_some]
      rw [← findPITRBackup_eq, ← findPITRBackup_eq]
      cases findPITRBackup cat (first :: rest) pitrRestore with
      | ok b => rfl
      | error e => rfl
  · rintro ⟨hscn, htime⟩
    exact h.single.elim hscn htime
  · rintro ⟨hscn, htime⟩
    exact h.target.elim (fun h => h hscn) fun h => h htime

/-- A point in time is looked for in the target incarnation, and in its parent if nothing there
lies before it. -/
theorem findPITRBackupForRestore_ok (h : findPITRBackupForRestore cat inst pitrRestore = .ok b) :
    ∃ p first rest, findRestorePITR cat inst pitrRestore = .ok p ∧
      pitrBackups cat p (targetIncarnation inst pitrRestore p) = first :: rest ∧
      (closest (pitrDistance cat pitrRestore) (first :: rest) none maxDuration = some b ∨
        closest (pitrDistance cat pitrRestore) (first :: rest) none maxDuration = none ∧
        closest (pitrDistance cat pitrRestore)
          (pitrBackups cat p (valueAt first.labels parentIncarnationLabel)) none maxDuration =
            some b) := by
  obtain ⟨p, hsearched⟩ := searched_of_ok h
  have hfound := findPITRBackupForRestore_of_searched hsearched
  rw [h] at hfound
  cases hlist : pitrBackups cat p (targetIncarnation inst pitrRestore p) with
  | nil =>
    rw [hlist] at hfound
    cases hfound
  | cons first rest =>
    rw [hlist] at hfound
    exact ⟨p, first, rest, hsearched.pitr, hlist, Option.or_eq_some_iff.mp hfound.symm⟩

theorem prevailsIn_iff (h : findPITRBackupForRestore cat inst pitrRestore = .ok b) :
    (∀ p ∈ (findRestorePITR cat inst pitrRestore).toOption,
      PrevailsIn cat pitrRestore p (targetIncarnation inst pitrRestore p) S) ↔ S b := by
  obtain ⟨p, first, rest, hp, hlist, hfound⟩ := findPITRBackupForRestore_ok h
  have hone : (∀ p ∈ (findRestorePITR cat inst pitrRestore).toOption,
      PrevailsIn cat pitrRestore p (targetIncarnation inst pitrRestore p) S) ↔
      PrevailsIn cat pitrRestore p (targetIncarnation inst pitrRestore p) S := by
    rw [hp]
    constructor
    · exact fun h => h p rfl
    · rintro h _ ⟨⟩
      exact h
  rw [hone]
  rcases hfound with hfound | ⟨hnone, hparent⟩
  · constructor
    · rintro ⟨htarget, -⟩
      rw [hlist] at htarget
      exact (prevails_iff hfound).mp htarget
    · intro hS
      refine ⟨by rw [hlist]; exact (prevails_iff hfound).mpr hS, ?_⟩
      intro hno
      rw [hlist] at hno
      have hcontra := closest_of_noCandidate hno
      rw [hfound] at hcontra
      cases hcontra
  · have hno := noCandidate_of_closest hnone
    constructor
    · rintro ⟨-, hprevails⟩
      rw [hlist] at hprevails
      exact (prevails_iff hparent).mp (hprevails hno first rfl)
    · intro hS
      refine ⟨by rw [hlist]; exact hno.prevails, ?_⟩
      rw [hlist]
      rintro - _ ⟨⟩
      exact (prevails_iff hparent).mpr hS

/-- Where nothing is found, there is nothing to take. -/
theorem prevailsIn_of_error {e : String} (hsearched : Searched cat pitrRestore inst p)
    (h : findPITRBackupForRestore cat inst pitrRestore = .error e) :
    PrevailsIn cat pitrRestore p (targetIncarnation inst pitrRestore p) S := by
  have hfound := findPITRBackupForRestore_of_searched hsearched
  rw [h] at hfound
  constructor
  · cases hlist : pitrBackups cat p (targetIncarnation inst pitrRestore p) with
    | nil =>
      intro x hx
      cases hx
    | cons first rest =>
      rw [hlist] at hfound
      exact (noCandidate_of_closest (Option.or_eq_none_iff.mp hfound.symm).1).prevails
  · intro _ first hfirst
    rw [hfirst, Option.bind_some] at hfound
    exact (noCandidate_of_closest (Option.or_eq_none_iff.mp hfound.symm).2).prevails

end Search

section Decidable

instance (distance : Backup → Option Int) (backups : List Backup) :
    Decidable (NoCandidate distance backups) :=
  inferInstanceAs (Decidable (∀ _ ∈ _, ∀ _ ∈ _, _))

variable (S : Backup → Prop) [DecidablePred S]

instance (distance : Backup → Option Int) (backups : List Backup) :
    Decidable (Prevails distance S backups) :=
  inferInstanceAs (Decidable (∀ _ ∈ _, ∀ _ ∈ _, _))

instance (cat : Catalog) (pitrRestore : PITRRestoreSpec) (p : PITR) (incarnation : String) :
    Decidable (PrevailsIn cat pitrRestore p incarnation S) :=
  decidable_of_iff
    (Prevails (pitrDistance cat pitrRestore) S (pitrBackups cat p incarnation) ∧
      (NoCandidate (pitrDistance cat pitrRestore) (pitrBackups cat p incarnation) →
        ∀ first ∈ (pitrBackups cat p incarnation).head?,
          Prevails (pitrDistance cat pitrRestore) S
            (pitrBackups cat p (valueAt first.labels parentIncarnationLabel))))
    ⟨fun ⟨h, h'⟩ => ⟨h, h'⟩, fun h => ⟨h.target, h.parent⟩⟩

end Decidable

section Sample

/-- A physical Backup of the second incarnation or the first one, for the window of the instance. -/
def windowBackup (name timestamp incarnation image : String) : Backup where
  ns := "db"
  name := name
  labels :=
    let labels := ((∅ : StrMap).insert pitrLabel "window").insert incarnationLabel incarnation
    if incarnation = "2" then labels.insert parentIncarnationLabel "1" else labels
  annotations :=
    ((∅ : StrMap).insert timestampAnnotation timestamp).insert databaseImageAnnotation image
  creationTimestamp := 0
  deletionTimestamp := none
  type := .physical
  status := ⟨.succeeded, [⟨.ready, .true, .backupReady, "", 0⟩], name⟩
  createdBy := none

/-- The times of the Backups, as they are annotated. -/
def readStamp (timestamp : String) : Option Time :=
  if timestamp = "1970-01-01T00:00:10Z" then some (10 * second)
  else if timestamp = "1970-01-01T00:00:20Z" then some (20 * second)
  else if timestamp = "1970-01-01T00:00:40Z" then some (40 * second)
  else none

def windowCatalog (backups : List Backup) : Catalog :=
  ⟨backups, [⟨"db", "window", ⟨"mydb"⟩, "gs://bk/mydb", "1"⟩], readStamp, fun _ => none, none, none,
    none, none⟩

end Sample

end ElCarro.Instance
