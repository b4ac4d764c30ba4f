import ElCarro.Pitr.Controller

/-! # The initial Backup of an incarnation

`ensureBackup` holds a reconcile up until the current incarnation has a Backup. It looks at
the condition of a single Backup only, and the one that it deletes is known to it by name,
whatever Backup it has found failed.
-/

namespace ElCarro.PitrController

open GoTime K8s Api Pitr

section EnsureBackup

/-- How `ensureBackup` returns. -/
inductive Ensured where
  | proceed | requeue | failed | panics
  deriving DecidableEq

/-- After a patch or a deletion the reconcile is to come back, or fails. -/
def Ensured.afterCall (r : CallResult) : Ensured := if r = .ok then .requeue else .failed

theorem Ensured.afterCall_ne (r : CallResult) : afterCall r ≠ .proceed := by
  unfold afterCall
  split <;> simp

variable (c : Cluster) (p : PITRObject) (inst : InstanceView)

def ensureBackup (a : Answers) : Cluster × Ensured :=
  if a.listBackups ≠ none then (c, .failed)
  else match decideOn (c.applicable p inst) with
    | .create =>
      (if a.initial.Effective then c.applyBackup (initialBackup p inst) else c,
        .afterCall a.initial)
    | .replaceFailed =>
      (if a.initial.Effective then c.deleteBackup p.ns (initialBackupName inst) else c,
        .afterCall a.initial)
    | .wait => (c, .requeue)
    | .panics => (c, .panics)
    | .proceed =>
      if a.listAllBackups ≠ none ∨ a.updateStatus ≠ none then (c, .failed) else (c, .proceed)

/-- A reconcile goes on to the schedule only if `ensureBackup` lets it. -/
theorem reconcile_of_ensureBackup {parseStandard : String → Except String CronSchedule}
    {a : Answers} (fuel : Nat) (hvalid : validatePITRSpec parseStandard p.spec = [])
    (hagent : a.ensureAgent = none) (h : (ensureBackup c p inst a).2 ≠ .proceed) :
    (reconcile parseStandard c p (some inst) a fuel).1 = (ensureBackup c p inst a).1 := by
  unfold ensureBackup at h ⊢
  unfold reconcile
  by_cases hlist : a.listBackups = none
  · rw [if_neg (not_not.mpr hlist)] at h ⊢
    simp only [hvalid, hagent, hlist, ne_eq, not_true_eq_false, or_self, if_false]
    cases hdec : decideOn (c.applicable p inst) with
    | create => rfl
    | replaceFailed => rfl
    | wait => rfl
    | panics => rfl
    | proceed =>
      simp only [hdec] at h
      by_cases hcalls : a.listAllBackups ≠ none ∨ a.updateStatus ≠ none
      · rw [if_pos hcalls]
        dsimp only
        split
        · rfl
        · next hall =>
          rw [if_pos (hcalls.resolve_left hall)]
      · rw [if_neg hcalls] at h
        exact absurd rfl h
  · rw [if_pos hlist]
    simp [hlist]

/-- A Backup of the current incarnation of the instance, among those of the PITR object. -/
def OfIncarnation (b : BackupObject) : Prop :=
  b ∈ c.applicable p inst ∧ b.spec.instanceName = inst.name

/-- An object under a name that was free. -/
def Creates (c' : Cluster) : Prop :=
  ∃ b ∈ c'.backups, ∀ b' ∈ c.backups, b'.isNamed b.ns b.name = false

/-- A name that is free afterwards. -/
def Deletes (c' : Cluster) (b : BackupObject) : Prop :=
  b ∈ c.backups ∧ ∀ b' ∈ c'.backups, b'.isNamed b.ns b.name = false

/-- What `ensureBackup` is for: a Backup for each incarnation, a failed one taken again. -/
structure Ensures (out : Cluster × Ensured) : Prop where
  proceeds : out.2 = .proceed → ∃ b, OfIncarnation c p inst b ∧ b.ready = some .backupReady
  creates : Creates c out.1 → ∀ b, ¬ OfIncarnation c p inst b
  deletes : ∀ b, Deletes c out.1 b → b.ready = some .backupFailed

/-- Two Backups or one in a further state are there, and one of this instance has succeeded. -/
def SucceededWhereProceeding : Prop :=
  decideOn (c.applicable p inst) = .proceed →
    ∃ b ∈ c.applicable p inst, b.spec.instanceName = inst.name ∧ b.ready = some .backupReady

/-- Where the only Backup has failed, so has the one under the name of the initial Backup. -/
def FailedWhereReplacing : Prop :=
  decideOn (c.applicable p inst) = .replaceFailed →
    ∀ b ∈ c.backups, b.isNamed p.ns (initialBackupName inst) → b.ready = some .backupFailed

end EnsureBackup

section

variable {c : Cluster} {p : PITRObject} {inst : InstanceView}

theorem isNamed_iff {b : BackupObject} {ns name : String} :
    b.isNamed ns name = true ↔ b.ns = ns ∧ b.name = name := by
  simp [BackupObject.isNamed]

/-- A Backup that is there has its name taken. -/
theorem not_free {b b' : BackupObject} {backups : List BackupObject} (hb : b ∈ backups)
    (hns : b.ns = b'.ns) (hname : b.name = b'.name) :
    ¬ ∀ o ∈ backups, o.isNamed b'.ns b'.name = false := by
  intro hfree
  have hnamed := hfree b hb
  rw [isNamed_iff.mpr ⟨hns, hname⟩] at hnamed
  cases hnamed

/-- Without a name that comes or goes there is nothing to answer for. -/
theorem ensures_of_kept {e : Ensured} (he : e ≠ .proceed) : Ensures c p inst (c, e) where
  proceeds h := absurd h he
  creates := by
    rintro ⟨b, hb, hfree⟩
    exact absurd hfree (not_free hb rfl rfl)
  deletes := by
    rintro b ⟨hb, hfree⟩
    exact absurd hfree (not_free hb rfl rfl)

/-- An apply leaves every name taken. -/
theorem not_deletes_applyBackup {template b : BackupObject} :
    ¬ Deletes c (c.applyBackup template) b := by
  rintro ⟨hb, hfree⟩
  by_cases hm : b.isNamed template.ns template.name = true
  · have hany : c.backups.any (BackupObject.isNamed template.ns template.name) = true :=
      List.any_eq_true.mpr ⟨b, hb, hm⟩
    have hmem : template.patch b ∈ (c.applyBackup template).backups := by
      unfold Cluster.applyBackup applyTo
      rw [if_pos hany]
      exact List.mem_map.mpr ⟨b, hb, if_pos hm⟩
    exact not_free hmem rfl rfl hfree
  · have hmem : b ∈ (c.applyBackup template).backups :=
      mem_applyTo_of_not_meant hb (by simpa using hm)
    exact not_free hmem rfl rfl hfree

theorem not_creates_deleteBackup {ns name : String} : ¬ Creates c (c.deleteBackup ns name) := by
  rintro ⟨b, hb, hfree⟩
  exact not_free (List.mem_of_mem_filter hb) rfl rfl hfree

/-- The Backups of a name are gone, and no others. -/
theorem deletes_deleteBackup_iff {ns name : String} {b : BackupObject} :
    Deletes c (c.deleteBackup ns name) b ↔ b ∈ c.backups ∧ b.isNamed ns name = true := by
  constructor
  · rintro ⟨hb, hfree⟩
    refine ⟨hb, ?_⟩
    by_contra hm
    exact not_free (List.mem_filter.mpr ⟨hb, by simpa using hm⟩) rfl rfl hfree
  · rintro ⟨hb, hm⟩
    obtain ⟨rfl, rfl⟩ := isNamed_iff.mp hm
    refine ⟨hb, ?_⟩
    intro b' hb'
    simpa using (List.mem_filter.mp hb').2

theorem decideOn_eq_create {backups : List BackupObject} (h : decideOn backups = .create) :
    backups = [] := by
  unfold decideOn at h
  split at h
  · rfl
  · split at h <;> cases h
  · cases h

theorem ensures_ensureBackup (hsucceeded : SucceededWhereProceeding c p inst)
    (hfailed : FailedWhereReplacing c p inst) (a : Answers) :
    Ensures c p inst (ensureBackup c p inst a) := by
  unfold ensureBackup
  split
  · exact ensures_of_kept (by simp)
  · cases hdec : decideOn (c.applicable p inst) with
    | wait => exact ensures_of_kept (by simp)
    | panics => exact ensures_of_kept (by simp)
    | create =>
      have hnone : ∀ b, ¬ OfIncarnation c p inst b := by
        rintro b ⟨hb, -⟩
        rw [decideOn_eq_create hdec] at hb
        cases hb
      dsimp only
      split
      · exact ⟨fun h => absurd h (Ensured.afterCall_ne _), fun _ => hnone,
          fun b hb => absurd hb not_deletes_applyBackup⟩
      · exact ensures_of_kept (Ensured.afterCall_ne _)
    | replaceFailed =>
      dsimp only
      split
      · refine ⟨fun h => absurd h (Ensured.afterCall_ne _),
          fun h => absurd h not_creates_deleteBackup, ?_⟩
        intro b hb
        obtain ⟨hmem, hnamed⟩ := deletes_deleteBackup_iff.mp hb
        exact hfailed hdec b hmem hnamed
      · exact ensures_of_kept (Ensured.afterCall_ne _)
    | proceed =>
      obtain ⟨b, hb, hinst, hready⟩ := hsucceeded hdec
      dsimp only
      split
      · exact ensures_of_kept (by simp)
      · have hkept : Ensures c p inst (c, .failed) := ensures_of_kept (by simp)
        exact ⟨fun _ => ⟨b, ⟨hb, hinst⟩, hready⟩, hkept.creates, hkept.deletes⟩

end

section Samples

/-- A Backup of the second incarnation of the instance. -/
def secondBackup (name : String) (ready : Reason) : BackupObject :=
  ⟨"db", name, ((∅ : StrMap).insert pitrLabel "pitr-a").insert incarnationLabel "2",
    ⟨"mydb", .physical, "Instance", "gs://bk/pitr-a"⟩, some ready, some ⟨"db", "pitr-a"⟩⟩

/-- The initial Backup as it runs, before its incarnation is known. -/
def unlabelledBackup : BackupObject :=
  { secondBackup "pitr-backup-incarnation-2" .backupInProgress with
    labels := (∅ : StrMap).insert pitrLabel "pitr-a" }

end Samples

end ElCarro.PitrController
