import ElCarro.BackupSchedule.Reconcile
import ElCarro.Cron.Reconcile

/-! # The deadline of a trigger

The deadline is given in seconds and compared in nanoseconds. The product of both is a
64-bit number, so that a longer deadline may come out as a shorter one, or as one in the
past.
-/

namespace ElCarro.Cron

open GoTime K8s

/-- The ways in which a CronAnything comes to a deadline of so many seconds. -/
inductive HasDeadline (n : Int) (ca : CronAnything) : Prop where
  | set (h : ca.spec.triggerDeadlineSeconds = some n)
  | created {lib : BackupSchedule.Libs} {env : BackupSchedule.Env}
      {schedule : BackupSchedule.Schedule} {key : ObjectKey}
      (hs : schedule.startingDeadlineSeconds = some n)
      (h : .createCron key ca.spec ∈ (BackupSchedule.createCron lib env schedule).1)
  | updated {lib : BackupSchedule.Libs} {env : BackupSchedule.Env}
      {schedule : BackupSchedule.Schedule} {cron : CronAnything} {key : ObjectKey}
      (hs : schedule.startingDeadlineSeconds = some n)
      (h : .updateCron key ca.spec ∈ (BackupSchedule.updateCron lib env schedule cron).1)

section Copy

variable {lib : BackupSchedule.Libs} {env : BackupSchedule.Env}
  {schedule : BackupSchedule.Schedule} {cron ca : CronAnything} {key : ObjectKey} {n : Int}
  {spec : CronAnythingSpec}

theorem createCron_deadline
    (h : .createCron key spec ∈ (BackupSchedule.createCron lib env schedule).1) :
    spec.triggerDeadlineSeconds =
      some (schedule.startingDeadlineSeconds.getD BackupSchedule.defaultTriggerDeadlineSeconds) := by
  unfold BackupSchedule.createCron at h
  split at h
  · cases h
  · split at h
    · cases h
    · simp only [List.mem_singleton, BackupSchedule.Call.createCron.injEq] at h
      rw [h.2]
      rfl

theorem updateCron_deadline
    (h : .updateCron key spec ∈ (BackupSchedule.updateCron lib env schedule cron).1) :
    spec.triggerDeadlineSeconds = schedule.startingDeadlineSeconds := by
  unfold BackupSchedule.updateCron at h
  split at h
  · cases h
  · dsimp only at h
    split at h
    · cases h
    · cases h
    · simp only [List.mem_singleton, BackupSchedule.Call.updateCron.injEq] at h
      rw [h.2]

/-- A deadline that a BackupSchedule sets is copied as it is. -/
theorem hasDeadline_iff : HasDeadline n ca ↔ ca.spec.triggerDeadlineSeconds = some n := by
  constructor
  · rintro (h | ⟨hs, h⟩ | ⟨hs, h⟩)
    · exact h
    · rw [createCron_deadline h, hs]
      rfl
    · rw [updateCron_deadline h, hs]
  · exact .set

end Copy

/-- A trigger that is not late under the first deadline is not late under the second. -/
def NoLater (n m : Int) : Prop :=
  ∀ ca ca' : CronAnything, HasDeadline n ca → HasDeadline m ca' → ∀ scheduleTime now : Time,
    deadlineExceeded ca scheduleTime now = false → deadlineExceeded ca' scheduleTime now = false

/-- From one number of seconds to the other, the nanoseconds grow by as much as the range that
they leave more often. -/
def OutgrowsWraps (n m : Int) : Prop :=
  (wraps (m * second) - wraps (n * second)) * 2 ^ 64 ≤ (m - n) * second

instance (n m : Int) : Decidable (OutgrowsWraps n m) := inferInstanceAs (Decidable (_ ≤ _))

section

variable {ca : CronAnything} {n m : Int}

theorem deadlineExceeded_eq_false_iff (h : HasDeadline n ca) (scheduleTime now : Int) :
    deadlineExceeded ca scheduleTime now = false ↔ now ≤ scheduleTime + int64 (n * second) := by
  rw [hasDeadline_iff] at h
  simp [deadlineExceeded, h]

theorem int64_le_int64_iff :
    int64 (n * second) ≤ int64 (m * second) ↔ OutgrowsWraps n m := by
  unfold OutgrowsWraps
  rw [int64_eq, int64_eq, Int.sub_mul m n]
  omega

/-- Some CronAnything with the deadline. -/
def nightlyTrigger (n : Int) : CronAnything :=
  ⟨"db", "nightly-cron", "1", 0, none,
    ⟨"@daily", some n, .forbid, none, none, "", none, none, none, none, none⟩, ⟨none, [], none⟩⟩

theorem nightlyTrigger_hasDeadline (n : Int) : HasDeadline n (nightlyTrigger n) := .set rfl

theorem noLater_iff_int64_le : NoLater n m ↔ int64 (n * second) ≤ int64 (m * second) := by
  constructor
  · intro h
    have hn := nightlyTrigger_hasDeadline n
    have hm := nightlyTrigger_hasDeadline m
    -- the last instant that the first deadline allows for a trigger at the zero time
    have hlast := h _ _ hn hm 0 (int64 (n * second))
      ((deadlineExceeded_eq_false_iff hn _ _).mpr (by omega))
    rw [deadlineExceeded_eq_false_iff hm] at hlast
    omega
  · intro hle ca ca' hca hca' scheduleTime now hin
    rw [deadlineExceeded_eq_false_iff hca] at hin
    rw [deadlineExceeded_eq_false_iff hca']
    omega

/-- The nanoseconds of deadlines up to 292 years stay in the range. -/
theorem noLater_of_small (hn : -9223372036 ≤ n) (hnm : n ≤ m) (hm : m ≤ 9223372036) :
    NoLater n m := by
  have hin : ∀ k : Int, -9223372036 ≤ k → k ≤ 9223372036 → int64 (k * second) = k * second := by
    intro k hlo hhi
    rw [int64_eq]
    unfold wraps second
    omega
  rw [noLater_iff_int64_le, hin n hn (by omega), hin m (by omega) hm]
  unfold second
  omega

end

/--
A longer deadline is never the stricter one exactly when the nanoseconds grow by as much as the
64-bit range that they leave more often on the way.
-/
theorem noLater_iff (n m : Int) : NoLater n m ↔ OutgrowsWraps n m := by
  rw [noLater_iff_int64_le, int64_le_int64_iff]

/-- With one second more, the trigger of an hour ago is late. -/
theorem longer_deadline_late :
    ¬ ∀ n m : Int, -2 ^ 63 ≤ n → n ≤ m → m < 2 ^ 63 → NoLater n m := by
  intro h
  have hle := h 9223372036 9223372037 (by decide) (by decide) (by decide)
  have hlate := hle (nightlyTrigger 9223372036) (nightlyTrigger 9223372037) (.set rfl) (.set rfl)
    (date 2022 1 1) (date 2022 1 1 + hour) (by decide)
  revert hlate
  decide

end ElCarro.Cron
