import Mathlib.Data.List.Sort
import ElCarro.BackupSchedule.Reconcile

/-! # Whose Backups a BackupSchedule works on

The Backups of a schedule are found by the name of its cron in a label, in every
namespace. History and retention stay within the schedule's own Backups exactly
when that list holds no other ones.
-/

namespace ElCarro.BackupSchedule

open GoTime K8s Api Cron

/-- The Backup lies in the namespace of the schedule and was created by its cron. -/
def Own (req : ObjectKey) (b : Backup) : Prop :=
  b.ns = req.ns ∧ b.createdBy = some ⟨req.ns, req.name ++ "-cron"⟩

instance (req : ObjectKey) (b : Backup) : Decidable (Own req b) :=
  inferInstanceAs (Decidable (_ ∧ _))

/-- Every Backup that is deleted or counted is the schedule's own. -/
def OwnOnly (req : ObjectKey) (out : Outcome) : Prop :=
  (∀ b ok, Call.deleteBackup b ok ∈ out.calls → Own req b) ∧ ∀ b ∈ out.counted, Own req b

/-- The schedule and its cron are there, and the calls before the retention loop succeed. -/
def RecordsHistory (lib : Libs) (env : Env) (c : Cluster) (req : ObjectKey) : Prop :=
  env.getErr = none ∧ env.getCronErr = none ∧ recordHistory env = .ok () ∧
  ∃ schedule ∈ c.getSchedule req,
    ∃ cron ∈ c.getCron ⟨schedule.ns, getCronName schedule⟩,
      (updateCron lib env schedule cron).2 = none

section

variable {lib : Libs} {env : Env} {c : Cluster} {req : ObjectKey}

theorem getSchedule_key {schedule : Schedule} (h : c.getSchedule req = some schedule) :
    schedule.ns = req.ns ∧ schedule.name = req.name := by
  simpa using List.find?_some h

theorem getCron_key {key : ObjectKey} {cron : CronAnything} (h : c.getCron key = some cron) :
    cron.ns = key.ns ∧ cron.name = key.name := by
  simpa using List.find?_some h

theorem deleteBackup_not_mem_createCron {schedule : Schedule} (b : Backup) (ok : Bool) :
    Call.deleteBackup b ok ∉ (createCron lib env schedule).1 := by
  unfold createCron
  split
  · simp
  · split <;> simp

theorem deleteBackup_not_mem_updateCron {schedule : Schedule} {cron : CronAnything} (b : Backup)
    (ok : Bool) : Call.deleteBackup b ok ∉ (updateCron lib env schedule cron).1 := by
  unfold updateCron
  split
  · simp
  · dsimp only
    split <;> simp

/-- The retention loop deletes Backups of the list it is given. -/
theorem mem_pruneLoop {b : Backup} {ok : Bool} :
    ∀ {count : Int} {backups : List Backup},
      Call.deleteBackup b ok ∈ (pruneLoop env count backups).1 → b ∈ backups := by
  intro count backups
  induction backups generalizing count with
  | nil =>
    intro h
    simp [pruneLoop] at h
  | cons backup rest ih =>
    intro h
    unfold pruneLoop at h
    dsimp only at h
    split at h
    · split at h
      · simp only [List.mem_singleton, Call.deleteBackup.injEq] at h
        simp [h.1]
      · rcases List.mem_cons.mp h with h | h
        · simp only [Call.deleteBackup.injEq] at h
          simp [h.1]
        · exact List.mem_cons_of_mem _ (ih h)
    · exact List.mem_cons_of_mem _ (ih h)

theorem mem_pruneBackups {b : Backup} {ok : Bool} {max : Int} {backups : List Backup}
    (h : Call.deleteBackup b ok ∈ (pruneBackups env max backups).1) : b ∈ backups := by
  unfold pruneBackups at h
  split at h
  · simp at h
  · exact mem_pruneLoop h

theorem mem_getSortedBackupsForCron {b : Backup} {cron : CronAnything} :
    b ∈ getSortedBackupsForCron lib c cron ↔ b ∈ c.listBackups cron.name :=
  (lib.sort_perm _ _).mem_iff

end

section

variable {lib : Libs} {env : Env} {c : Cluster} {req : ObjectKey}

/-- A reconcile that ends before the history makes no difference to any Backup. -/
theorem ownOnly_of_early {calls : List Call} {err : Option ApiError}
    (h : ∀ b ok, Call.deleteBackup b ok ∉ calls) : OwnOnly req ⟨calls, [], err⟩ :=
  ⟨fun b ok hb => absurd hb (h b ok), by simp⟩

/-- Once the history is recorded, counted and deleted Backups are the listed ones. -/
theorem ownOnly_iff_of_recorded {schedule : Schedule} {cron : CronAnything} {calls : List Call}
    (hcalls : ∀ b ok, Call.deleteBackup b ok ∉ calls) (hname : cron.name = req.name ++ "-cron") :
    OwnOnly req
        ⟨calls ++ [.updateStatus req (historyOf (getSortedBackupsForCron lib c cron))] ++
          (pruneBackups env (retentionCount schedule) (getSortedBackupsForCron lib c cron)).1,
          getSortedBackupsForCron lib c cron,
          (pruneBackups env (retentionCount schedule) (getSortedBackupsForCron lib c cron)).2⟩ ↔
      ∀ b ∈ c.listBackups (req.name ++ "-cron"), Own req b := by
  constructor
  · rintro ⟨-, hcounted⟩ b hb
    exact hcounted b (mem_getSortedBackupsForCron.mpr (hname ▸ hb))
  · intro hown
    have hsorted : ∀ b ∈ getSortedBackupsForCron lib c cron, Own req b := fun b hb =>
      hown b (hname ▸ mem_getSortedBackupsForCron.mp hb)
    refine ⟨fun b ok hb => ?_, hsorted⟩
    simp only [List.append_assoc, List.mem_append, List.mem_singleton, reduceCtorEq,
      false_or] at hb
    rcases hb with hb | hb
    · exact absurd hb (hcalls b ok)
    · exact hsorted b (mem_pruneBackups hb)

end

/--
A reconcile deletes and counts only the schedule's own Backups exactly when, if it comes to
record the history at all, every live Backup that carries the name of its cron is its own.
-/
theorem ownOnly_iff_listed_own (lib : Libs) (env : Env) (c : Cluster) (req : ObjectKey) :
    OwnOnly req (reconcile lib env c req) ↔
      (RecordsHistory lib env c req → ∀ b ∈ c.listBackups (req.name ++ "-cron"), Own req b) := by
  unfold reconcile RecordsHistory
  split
  · next hget => simp [hget, ownOnly_of_early]
  · next hget => simp [hget, ownOnly_of_early]
  · next hget hsched => simp [hget, hsched, ownOnly_of_early]
  · next schedule hget hsched =>
    obtain ⟨hns, hname⟩ := getSchedule_key hsched
    have hkey : (⟨schedule.ns, getCronName schedule⟩ : ObjectKey) =
        ⟨req.ns, req.name ++ "-cron"⟩ := by rw [getCronName, hns, hname]
    split
    · next hcron =>
      simp [hcron, ownOnly_of_early deleteBackup_not_mem_createCron]
    · next hcronErr hcron =>
      simp [hsched, hcron, ownOnly_of_early deleteBackup_not_mem_createCron]
    · next hcron => simp [hcron, ownOnly_of_early]
    · next cron hcronErr hcron =>
      have hcronName : cron.name = req.name ++ "-cron" := by
        rw [hkey] at hcron
        exact (getCron_key hcron).2
      have hno : ∀ b ok, Call.deleteBackup b ok ∉ (updateCron lib env schedule cron).1 :=
        deleteBackup_not_mem_updateCron
      split
      · next calls err hupd =>
        rw [hupd] at hno
        simp [hsched, hcron, hupd, ownOnly_of_early hno]
      · next calls hupd =>
        rw [hupd] at hno
        split
        · next err hrec => simp [hrec, ownOnly_of_early hno]
        · next hrec =>
          rw [ownOnly_iff_of_recorded hno hcronName]
          simp [hget, hcronErr, hrec, hsched, hcron, hupd]

/-- The schedule of one team. -/
def nightly : Schedule :=
  ⟨"team-a", "nightly", "@daily", none, some (some 1), "", ⟨none, []⟩⟩

def nightlyCronAnything : CronAnything :=
  ⟨"team-a", "nightly-cron", "a", 0, none, cronSpec nightly "", ⟨none, [], none⟩⟩

def plainLibs : Libs where
  getBackupBytes schedule := .ok schedule.backupSpec
  compareTemplate left right := .ok (left == right)
  sort less items := items.insertionSort fun a b => less b a = false
  sort_perm _ items := List.perm_insertionSort _ items

def quietEnv : Env := ⟨none, none, none, fun _ => none, fun _ => none, fun _ => none, fun _ => none⟩

/-- A finished Backup that the cron of the given namespace created. -/
def nightlyBackup (ns : String) (t : Time) : Backup :=
  ⟨ns, "nightly-cron-" ++ ns, [⟨createdByLabel, "nightly-cron"⟩].toFinmap, ∅, t, none, .physical,
    ⟨.succeeded, [], ""⟩, some ⟨ns, "nightly-cron"⟩⟩

/-- With a schedule of the same name elsewhere, the retention of one team deletes the other's. -/
theorem same_named_schedule_deletes :
    ¬ OwnOnly ⟨"team-a", "nightly"⟩ (reconcile plainLibs quietEnv
      ⟨[nightly], [nightlyCronAnything], [nightlyBackup "team-a" 2, nightlyBackup "team-b" 1]⟩
      ⟨"team-a", "nightly"⟩) := by
  intro h
  have hdel : Call.deleteBackup (nightlyBackup "team-b" 1) true ∈ (reconcile plainLibs quietEnv
      ⟨[nightly], [nightlyCronAnything], [nightlyBackup "team-a" 2, nightlyBackup "team-b" 1]⟩
      ⟨"team-a", "nightly"⟩).calls := by decide
  exact absurd (h.1 _ _ hdel) (by decide)

end ElCarro.BackupSchedule
