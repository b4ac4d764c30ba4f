import Mathlib.Order.Iterate
import ElCarro.BackupSchedule.Reconcile

/-! # How many backups PITR keeps

The PITR controller counts the activations of its backup schedule in the first week
of 2020 and keeps that many backups and two more. A schedule without a weekly rhythm
can have more activations in another week; the backups of that week then displace
every backup from before it.
-/

namespace ElCarro.Pitr

open GoTime Api BackupSchedule

/-- A parsed schedule of the cron library, by its `Next`. -/
structure CronSchedule where
  next : Time → Time
  whole : ∀ t, second ∣ next t
  /-- `Next` is later than its argument, or zero if nothing satisfies the schedule. -/
  later : (∀ t, t < next t) ∨ ∀ t, next t = 0

structure PITRSpec where
  storageURI : String
  backupSchedule : String

section Controller

variable (parseStandard : String → Except String CronSchedule)

def validatePITRSpec (spec : PITRSpec) : List String :=
  (if "gs://".toList <+: spec.storageURI.toList then []
    else ["spec.storageURI only suppore GCS schemes."]) ++
  (if spec.backupSchedule ≠ "" ∧ (parseStandard spec.backupSchedule).toOption.isNone then
    ["spec.backupSchedule cannot be parsed."] else [])

/-- The loop of `calculateBackupRetentionCnt`, which counts in 32 bits. -/
def retentionLoop (next : Time → Time) (endTime : Time) : Nat → Time → Int → Option Int
  | 0, _, _ => none
  | fuel + 1, startTime, backupRetentionCnt =>
    if startTime < endTime then
      retentionLoop next endTime fuel (next startTime) (int32 (backupRetentionCnt + 1))
    else some (int32 (backupRetentionCnt + 1))

def retentionStart : Time := date 2020 1 1

/-- The parser gives the `Next` of a schedule that it accepts. -/
def calculateBackupRetentionCnt (parse : String → Except String (Time → Time))
    (backupSchedule : String) (recoverWindow : Duration) (fuel : Nat) : Option Int :=
  match parse backupSchedule with
  | .ok next => retentionLoop next (retentionStart + recoverWindow) fuel retentionStart 0
  -- a schedule that cannot be parsed is nil
  | .error _ => none

/-- The schedule in the template, every four hours unless the spec has one. -/
def backupScheduleOf (spec : PITRSpec) : String :=
  if spec.backupSchedule ≠ "" then spec.backupSchedule else "0 */4 * * *"

def recoverWindow : Duration := hour * 24 * 7

/-- The retention count of `backupScheduleTemplate`. -/
def retentionCnt (spec : PITRSpec) (fuel : Nat) : Option Int :=
  calculateBackupRetentionCnt (fun text => (parseStandard text).map CronSchedule.next)
    (backupScheduleOf spec) recoverWindow fuel

variable {parseStandard}

/-- An accepted spec has a schedule that can be parsed, if the default one can. -/
theorem exists_schedule_of_valid {spec : PITRSpec} {schedule : CronSchedule}
    (hdefault : parseStandard "0 */4 * * *" = .ok schedule)
    (h : validatePITRSpec parseStandard spec = []) :
    ∃ schedule, parseStandard (backupScheduleOf spec) = .ok schedule := by
  unfold backupScheduleOf
  split
  · next hne =>
    cases hparse : parseStandard spec.backupSchedule with
    | ok schedule => exact ⟨schedule, rfl⟩
    | error err =>
      have hunparsed : (parseStandard spec.backupSchedule).toOption.isNone = true := by
        rw [hparse]
        rfl
      have hnone := (List.append_eq_nil_iff.mp h).2
      rw [if_pos ⟨hne, hunparsed⟩] at hnone
      cases hnone
  · exact ⟨schedule, hdefault⟩

end Controller

/-- A run in which every scheduled backup up to now was taken and succeeded. -/
structure BackupRun (schedule : CronSchedule) where
  created : Time
  taken : Nat
  now : Time
  due : ∀ i < taken, schedule.next^[i + 1] created ≤ now
  upToDate : now < schedule.next^[taken + 1] created
  /-- Newest first, each made at its schedule time. -/
  backups : List Backup
  times : backups.map (·.creationTimestamp) =
    ((List.range taken).map fun i => schedule.next^[i + 1] created).reverse
  succeeded : ∀ b ∈ backups, b.status.phase = .succeeded
  env : BackupSchedule.Env
  deletes : ∀ b, env.deleteErr b = none

/-- The backup is as old as the recovery window. -/
def BackupRun.Old {schedule : CronSchedule} (run : BackupRun schedule) (b : Backup) : Prop :=
  b.creationTimestamp ≤ run.now - recoverWindow

instance {schedule : CronSchedule} (run : BackupRun schedule) : DecidablePred run.Old :=
  fun _ => inferInstanceAs (Decidable (_ ≤ _))

/-- If an old backup was taken, one is left after pruning. -/
def KeepsOld (parseStandard : String → Except String CronSchedule) (spec : PITRSpec)
    {schedule : CronSchedule} (run : BackupRun schedule) : Prop :=
  ∀ fuel max, retentionCnt parseStandard spec fuel = some max →
    (∃ b ∈ run.backups, run.Old b) →
      ∃ b ∈ run.backups, run.Old b ∧
        ∀ ok, BackupSchedule.Call.deleteBackup b ok ∉ (pruneBackups run.env max run.backups).1

section Loop

variable {next : Time → Time} {endTime : Time}

theorem int32_add_one (n : Int) : int32 (int32 n + 1) = int32 (n + 1) := Int.bmod_add_bmod

theorem int32_of_small {n : Int} (h : 0 ≤ n) (hn : n < 2 ^ 31) : int32 n = n := by
  apply Int.bmod_eq_of_le <;> omega

/-- The loop returns after the first activation that is not before the end. -/
theorem retentionLoop_eq_some {fuel : Nat} {t : Time} {cnt max : Int}
    (h : retentionLoop next endTime fuel t (int32 cnt) = some max) :
    ∃ n : Nat, (∀ i < n, next^[i] t < endTime) ∧ endTime ≤ next^[n] t ∧
      max = int32 (cnt + n + 1) := by
  induction fuel generalizing t cnt with
  | zero => cases h
  | succ fuel ih =>
    unfold retentionLoop at h
    rw [int32_add_one] at h
    split at h
    · next hlt =>
      obtain ⟨n, hbefore, hend, rfl⟩ := ih h
      refine ⟨n + 1, ?_, hend, by congr 1; omega⟩
      intro i hi
      cases i with
      | zero => exact hlt
      | succ i => exact hbefore i (Nat.lt_of_succ_lt_succ hi)
    · next hge =>
      refine ⟨0, by simp, not_lt.mp hge, ?_⟩
      rw [← Option.some.inj h]
      simp

theorem retentionLoop_returns {n : Nat} {t : Time} (cnt : Int) (h : endTime ≤ next^[n] t) :
    ∃ fuel max, retentionLoop next endTime fuel t cnt = some max := by
  induction n generalizing t cnt with
  | zero => exact ⟨1, _, if_neg (not_lt.mpr h)⟩
  | succ n ih =>
    by_cases hlt : t < endTime
    · obtain ⟨fuel, max, hmax⟩ := ih (int32 (cnt + 1)) h
      exact ⟨fuel + 1, max, by rw [retentionLoop, if_pos hlt, hmax]⟩
    · exact ⟨1, _, if_neg hlt⟩

end Loop

section Prune

variable {env : BackupSchedule.Env}

theorem pruneLoop_calls (hdeletes : ∀ b, env.deleteErr b = none) (backups : List Backup)
    (hsucceeded : ∀ b ∈ backups, b.status.phase = .succeeded) (count : Nat) :
    (pruneLoop env count backups).1 =
      (backups.drop count).map (BackupSchedule.Call.deleteBackup · true) := by
  induction backups generalizing count with
  | nil => simp [pruneLoop]
  | cons b rest ih =>
    have hb : b.status.phase = .succeeded := hsucceeded b List.mem_cons_self
    have hrest := ih fun b' hb' => hsucceeded b' (List.mem_cons_of_mem _ hb')
    cases count with
    | zero =>
      have hloop : (pruneLoop env 0 rest).1 = rest.map (.deleteBackup · true) := hrest 0
      simp [pruneLoop, hdeletes b, hloop]
    | succ count =>
      have hpos : ¬ ((count + 1 : Nat) : Int) ≤ 0 := by omega
      have hsub : ((count + 1 : Nat) : Int) - 1 = count := by omega
      rw [pruneLoop, if_neg hpos, if_pos ⟨hb, not_le.mp hpos⟩, hsub, hrest count,
        List.drop_succ_cons]

/-- Of a falling list, the first `k` elements reach down to `x` when fewer than `k` lie above. -/
theorem exists_mem_take_le {l : List Time} (hl : l.Pairwise (· > ·)) (x : Time) (k : Nat) :
    (∃ t ∈ l.take k, t ≤ x) ↔ (∃ t ∈ l, t ≤ x) ∧ (l.filter (x < ·)).length < k := by
  induction l generalizing k with
  | nil => simp
  | cons a l ih =>
    obtain ⟨hhead, htail⟩ := List.pairwise_cons.mp hl
    by_cases ha : x < a
    · have hfilter : ((a :: l).filter (x < ·)).length = (l.filter (x < ·)).length + 1 := by
        simp [ha]
      cases k with
      | zero => simp
      | succ k =>
        rw [hfilter, Nat.succ_lt_succ_iff, List.take_succ_cons]
        simpa [not_le.mpr ha] using ih htail k
    · have hle : a ≤ x := not_lt.mp ha
      have hnil : (a :: l).filter (x < ·) = [] := by
        apply List.filter_eq_nil_iff.mpr
        intro t ht
        rcases List.mem_cons.mp ht with rfl | ht
        · simpa using hle
        · simpa using ((hhead t ht).le.trans hle)
      rw [hnil]
      cases k with
      | zero => simp
      | succ k => simp [hle]

end Prune

section Window

variable {schedule : CronSchedule}

theorem iterate_lt_iterate (hlater : ∀ t, t < schedule.next t) (t : Time) {i j : Nat}
    (hij : i < j) : schedule.next^[i] t < schedule.next^[j] t := by
  induction hij with
  | refl =>
    rw [Function.iterate_succ_apply']
    exact hlater _
  | step _ ih =>
    rw [Function.iterate_succ_apply']
    exact ih.trans (hlater _)

/-- Activations are a second apart at least. -/
theorem le_iterate (hlater : ∀ t, t < schedule.next t) {t : Time} (ht : second ∣ t) (i : Nat) :
    t + i * second ≤ schedule.next^[i] t ∧ second ∣ schedule.next^[i] t := by
  induction i with
  | zero => simpa using ht
  | succ i ih =>
    obtain ⟨hle, hdvd⟩ := ih
    rw [Function.iterate_succ_apply']
    have hlt := hlater (schedule.next^[i] t)
    have hwhole := schedule.whole (schedule.next^[i] t)
    refine ⟨?_, hwhole⟩
    obtain ⟨a, ha⟩ := hdvd
    obtain ⟨b, hb⟩ := hwhole
    unfold second Time Duration at *
    push_cast
    omega

def recoverSeconds : Nat := 604800

theorem end_le_iterate (hlater : ∀ t, t < schedule.next t) :
    retentionStart + recoverWindow ≤ schedule.next^[recoverSeconds] retentionStart := by
  have hstart : second ∣ retentionStart := by decide
  have hwindow : recoverWindow = recoverSeconds * second := by decide
  rw [hwindow]
  exact (le_iterate hlater hstart recoverSeconds).1

/-- The count for a schedule that goes on for ever. -/
theorem retentionLoop_eq {fuel : Nat} {max : Int} (hlater : ∀ t, t < schedule.next t)
    (h : retentionLoop schedule.next (retentionStart + recoverWindow) fuel retentionStart 0 =
      some max) :
    ∃ n : Nat, max = n + 1 ∧ ∀ k : Nat, k ≤ n ↔
      ∀ i < k, schedule.next^[i] retentionStart < retentionStart + recoverWindow := by
  have hzero : (0 : Int) = int32 0 := by decide
  rw [hzero] at h
  obtain ⟨n, hbefore, hend, hmax⟩ := retentionLoop_eq_some h
  have hsmall : n ≤ recoverSeconds := by
    by_contra hn
    have hlt := hbefore recoverSeconds (not_le.mp hn)
    exact absurd hlt (not_lt.mpr (end_le_iterate hlater))
  refine ⟨n, ?_, fun k => ⟨fun hk i hi => hbefore i (hi.trans_le hk), fun hk => ?_⟩⟩
  · have hbound : n ≤ 604800 := hsmall
    rw [hmax, int32_of_small] <;> omega
  · by_contra hn
    exact absurd (hk n (not_le.mp hn)) (not_lt.mpr hend)

theorem retentionLoop_total (hlater : ∀ t, t < schedule.next t) :
    ∃ fuel max, retentionLoop schedule.next (retentionStart + recoverWindow) fuel
      retentionStart 0 = some max :=
  retentionLoop_returns 0 (end_le_iterate hlater)

namespace BackupRun

variable (run : BackupRun schedule)

theorem falling (hlater : ∀ t, t < schedule.next t) :
    (run.backups.map (·.creationTimestamp)).Pairwise (· > ·) := by
  rw [run.times, List.pairwise_reverse, List.pairwise_map]
  apply List.pairwise_lt_range.imp
  intro i j hij
  exact iterate_lt_iterate hlater run.created (Nat.succ_lt_succ hij)

theorem backups_eq_nil (hnever : ∀ t, schedule.next t = 0) : run.backups = [] := by
  have hzero : ∀ i, schedule.next^[i + 1] run.created = 0 := by
    intro i
    rw [Function.iterate_succ_apply']
    exact hnever _
  cases htaken : run.taken with
  | zero => simpa [htaken] using run.times
  | succ n =>
    have hdue := run.due 0 (by omega)
    have hnow := run.upToDate
    rw [hzero] at hdue hnow
    exact absurd hnow (not_lt.mpr hdue)

/-- The backups younger than the window. -/
def young : List Backup := run.backups.filter fun b => ¬ run.Old b

/-- What pruning leaves reaches back over the window if the young backups do not fill it. -/
theorem keeps_iff (hlater : ∀ t, t < schedule.next t) (n : Nat) :
    (∃ b ∈ run.backups, run.Old b ∧ ∀ ok, BackupSchedule.Call.deleteBackup b ok ∉
        (pruneBackups run.env ((n : Int) + 1) run.backups).1) ↔
      (∃ b ∈ run.backups, run.Old b) ∧ run.young.length ≤ n := by
  have hcalls : (pruneBackups run.env ((n : Int) + 1) run.backups).1 =
      (run.backups.drop (n + 1)).map (.deleteBackup · true) := by
    have hne : (n : Int) + 1 ≠ 0 := by omega
    rw [pruneBackups, if_neg hne]
    exact pruneLoop_calls run.deletes run.backups run.succeeded (n + 1)
  have hfalling := run.falling hlater
  have hkept : ∀ b ∈ run.backups, (∀ ok, BackupSchedule.Call.deleteBackup b ok ∉
      (pruneBackups run.env ((n : Int) + 1) run.backups).1) ↔ b ∈ run.backups.take (n + 1) := by
    intro b hb
    rw [hcalls]
    have hsplit := List.take_append_drop (n + 1) run.backups
    constructor
    · intro hno
      rw [← hsplit] at hb
      rcases List.mem_append.mp hb with hb | hb
      · exact hb
      · exact absurd (List.mem_map_of_mem hb) (hno true)
    · intro htake ok hmem
      obtain ⟨b', hdrop, heq⟩ := List.mem_map.mp hmem
      obtain ⟨rfl, -⟩ := BackupSchedule.Call.deleteBackup.inj heq
      rw [← hsplit, List.map_append, List.pairwise_append] at hfalling
      have hgt := hfalling.2.2 _ (List.mem_map_of_mem htake) _ (List.mem_map_of_mem hdrop)
      exact lt_irrefl _ hgt
  have hyoung : run.young.length = ((run.backups.map (·.creationTimestamp)).filter
      (run.now - recoverWindow < ·)).length := by
    simp only [young, List.filter_map, List.length_map, Old, Function.comp_def, not_le]
  have hold := exists_mem_take_le hfalling (run.now - recoverWindow) (n + 1)
  rw [← hyoung, Nat.lt_succ_iff, ← List.map_take] at hold
  simp only [List.mem_map, exists_exists_and_eq_and] at hold
  refine Iff.trans ?_ hold
  constructor
  · rintro ⟨b, hb, hbold, hno⟩
    exact ⟨b, (hkept b hb).mp hno, hbold⟩
  · rintro ⟨b, htake, hbold⟩
    have hb := List.mem_of_mem_take htake
    exact ⟨b, hb, hbold, (hkept b hb).mpr htake⟩

end BackupRun

theorem keepsOld_iff (parseStandard : String → Except String CronSchedule) (spec : PITRSpec)
    (schedule : CronSchedule) (hparse : parseStandard (backupScheduleOf spec) = .ok schedule)
    (run : BackupRun schedule) :
    KeepsOld parseStandard spec run ↔ (∀ b ∈ run.backups, ¬ run.Old b) ∨
      ∀ i < run.young.length,
        schedule.next^[i] retentionStart < retentionStart + recoverWindow := by
  have hcnt : ∀ fuel, retentionCnt parseStandard spec fuel = retentionLoop schedule.next
      (retentionStart + recoverWindow) fuel retentionStart 0 := by
    intro fuel
    simp only [retentionCnt, calculateBackupRetentionCnt, hparse, Except.map]
  rcases schedule.later with hlater | hnever
  · constructor
    · intro h
      by_cases hold : ∃ b ∈ run.backups, run.Old b
      · obtain ⟨fuel, max, hmax⟩ := retentionLoop_total hlater
        obtain ⟨n, rfl, hn⟩ := retentionLoop_eq hlater hmax
        have hkept := h fuel _ ((hcnt fuel).trans hmax) hold
        exact .inr ((hn _).mp ((run.keeps_iff hlater n).mp hkept).2)
      · left
        intro b hb hbold
        exact hold ⟨b, hb, hbold⟩
    · rintro h fuel max hmax ⟨b, hb, hbold⟩
      obtain ⟨n, rfl, hn⟩ := retentionLoop_eq hlater ((hcnt fuel).symm.trans hmax)
      have hwindow := h.resolve_left fun hno => hno b hb hbold
      exact (run.keeps_iff hlater n).mpr ⟨⟨b, hb, hbold⟩, (hn _).mpr hwindow⟩
  · have hnil := run.backups_eq_nil hnever
    apply iff_of_true
    · rintro fuel max - ⟨b, hb, -⟩
      rw [hnil] at hb
      cases hb
    · left
      intro b hb
      rw [hnil] at hb
      cases hb

end Window

section Example

/-- `0 */4 * * *`. -/
def everyFourHours : CronSchedule where
  next t := (t / (4 * hour) + 1) * (4 * hour)
  whole t := Dvd.dvd.mul_left (by decide) _
  later := .inl fun t => Int.lt_ediv_add_one_mul_self t (by decide)

/-- The hours of the fifteenth of December 2019 and of January 2020. -/
def fifteenths : List Time :=
  (List.range 24).map (fun h => date 2019 12 15 + h * hour) ++
    (List.range 24).map (fun h => date 2020 1 15 + h * hour)

/-- `0 * 15 * *`, every hour on the fifteenth of a month, as far as these two months go. -/
def fifteenth : CronSchedule where
  next t := (fifteenths.find? (t < ·)).getD ((t / hour + 1) * hour)
  whole t := by
    cases h : fifteenths.find? (t < ·) with
    | none => exact Dvd.dvd.mul_left (by decide) _
    | some a =>
      have hall : ∀ a ∈ fifteenths, second ∣ a := by decide
      exact hall a (List.mem_of_find?_eq_some h)
  later := by
    left
    intro t
    cases h : fifteenths.find? (t < ·) with
    | none => exact Int.lt_ediv_add_one_mul_self t (by decide)
    | some a =>
      have hlt := List.find?_some h
      exact of_decide_eq_true hlt

def parseSample : String → Except String CronSchedule
  | "0 */4 * * *" => .ok everyFourHours
  | "0 * 15 * *" => .ok fifteenth
  | _ => .error "unknown schedule"

def takenAt (t : Time) : Backup where
  ns := "db"
  name := "pitr-backup-schedule-cron-" ++ toString (unix t)
  labels := ∅
  annotations := ∅
  creationTimestamp := t
  deletionTimestamp := none
  type := .physical
  status := ⟨.succeeded, [], ""⟩
  createdBy := none

/-- Every call to the API server succeeds. -/
def servedCalls : BackupSchedule.Env :=
  ⟨none, none, none, fun _ => none, fun _ => none, fun _ => none, fun _ => none⟩

def takenRun (schedule : CronSchedule) (created now : Time) (taken : Nat)
    (due : ∀ i < taken, schedule.next^[i + 1] created ≤ now)
    (upToDate : now < schedule.next^[taken + 1] created) : BackupRun schedule where
  created := created
  taken := taken
  now := now
  due := due
  upToDate := upToDate
  backups := ((List.range taken).map fun i => takenAt (schedule.next^[i + 1] created)).reverse
  times := by simp [takenAt, Function.comp_def]
  succeeded := by
    intro b hb
    obtain ⟨i, -, rfl⟩ := List.mem_map.mp (List.mem_reverse.mp hb)
    rfl
  env := servedCalls
  deletes := fun _ => rfl

/-- Three backups on the fifteenth of December and three on the fifteenth of January. -/
def fifteenthRun : BackupRun fifteenth :=
  takenRun fifteenth (date 2019 12 15 + 20 * hour + 30 * minute)
    (date 2020 1 15 + 2 * hour + 30 * minute) 6 (by decide +kernel) (by decide +kernel)

/-- The first week of 2020 has no activation, so two backups are kept; in January both are a
few hours old, and those of December are gone. -/
theorem monthly_backups_displaced :
    validatePITRSpec parseSample ⟨"gs://bk/pitr", "0 * 15 * *"⟩ = [] ∧
      ¬ KeepsOld parseSample ⟨"gs://bk/pitr", "0 * 15 * *"⟩ fifteenthRun := by
  refine ⟨by decide +kernel, fun h => ?_⟩
  have hcnt : retentionCnt parseSample ⟨"gs://bk/pitr", "0 * 15 * *"⟩ 2 = some 2 := by
    decide +kernel
  have hold : ∃ b ∈ fifteenthRun.backups, fifteenthRun.Old b := by decide +kernel
  obtain ⟨b, hb, hbold, hno⟩ := h 2 2 hcnt hold
  have hdeleted : ∀ b ∈ fifteenthRun.backups, fifteenthRun.Old b →
      BackupSchedule.Call.deleteBackup b true ∈
        (pruneBackups fifteenthRun.env 2 fifteenthRun.backups).1 := by
    decide +kernel
  exact hno true (hdeleted b hb hbold)

/-- A little more than a week of the default schedule. -/
def defaultRun : BackupRun everyFourHours :=
  takenRun everyFourHours (date 2020 3 1) (date 2020 3 8 + 13 * hour) 45 (by decide +kernel)
    (by decide +kernel)

theorem default_schedule_keeps_old :
    parseSample (backupScheduleOf ⟨"gs://bk/pitr", ""⟩) = .ok everyFourHours ∧
      KeepsOld parseSample ⟨"gs://bk/pitr", ""⟩ defaultRun :=
  ⟨rfl, (keepsOld_iff parseSample _ everyFourHours rfl defaultRun).mpr
    (.inr (by decide +kernel))⟩

end Example

end ElCarro.Pitr
