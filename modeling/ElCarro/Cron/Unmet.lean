import Mathlib.Data.Int.Interval
import ElCarro.Lib.Timetable
import ElCarro.Cron.Schedule
import ElCarro.Cron.Isolation
import ElCarro.Pitr.Retention

/-! # Which times are unmet

The loop of `getScheduleTimes` and the one that counts retained backups ask the cron
library for one time after another until a bound is passed. The library looks five
years ahead and answers with the zero time when it finds no match. A loop that meets
the zero time goes back to year 1, and it ends only if every search on its way finds
a match. If they all do, the unmet times are the matches before the bound, and the
next time is the first match after it.
-/

namespace ElCarro.Cron

open GoTime K8s

/-- The schedule string is accepted, as a standard cron format or else as a full one. -/
def Libs.Accepts (lib : Libs) (schedule : String) (next : Time → Time) : Prop :=
  lib.parseStandard schedule = .ok next ∨
    (∃ err, lib.parseStandard schedule = .error err) ∧ lib.parse schedule = .ok next

/-- The instant after which times are unmet. -/
def startSchedTime (ca : CronAnything) : Time := ca.status.lastScheduleTime.getD ca.creationTimestamp

section Loops

variable {lib : Libs} {ca : CronAnything} {next : Time → Time} {now t : Time}

theorem getScheduleTimes_of_accepts (h : lib.Accepts ca.spec.schedule next) (fuel : Nat) :
    getScheduleTimes lib ca now fuel =
      (unmetTimes next now fuel (next (startSchedTime ca))).map fun times =>
        .ok (times, next now) := by
  unfold getScheduleTimes
  rcases h with hstd | ⟨⟨err, hstd⟩, hfull⟩
  · simp only [hstd]
    rfl
  · simp only [hstd, hfull]
    rfl

theorem unmetTimes_returns_iff :
    (∃ fuel, (unmetTimes next now fuel t).isSome) ↔ Timetable.Reaches next now t := by
  constructor
  · rintro ⟨fuel, h⟩
    induction fuel generalizing t with
    | zero => cases h
    | succ fuel ih =>
      rw [unmetTimes] at h
      split at h
      · exact Timetable.reaches_of_next (ih (by simpa using h))
      · next hge => exact Timetable.reaches_of_le (not_lt.mp hge)
  · rintro ⟨n, hn⟩
    induction n generalizing t with
    | zero =>
      have hge : ¬ t < now := not_lt.mpr hn
      exact ⟨1, by simp [unmetTimes, hge]⟩
    | succ n ih =>
      obtain ⟨fuel, h⟩ := ih hn
      use fuel + 1
      rw [unmetTimes]
      split
      · simpa using h
      · rfl

/-- The counting loop stops where the collecting one does. -/
theorem retentionLoop_isSome (fuel : Nat) (cnt : Int) :
    (Pitr.retentionLoop next now fuel t cnt).isSome = (unmetTimes next now fuel t).isSome := by
  induction fuel generalizing t cnt with
  | zero => rfl
  | succ fuel ih =>
    rw [Pitr.retentionLoop, unmetTimes]
    split
    · rw [ih, Option.isSome_map]
    · rfl

end Loops

section Termination

/--
When the loops end. Both go on forever once a search finds nothing before the bound, unless a
way from the zero time leads past the bound.
-/
theorem schedule_loops_return_iff (lib : Libs) (ca : CronAnything) (now : Time)
    (tt : Timetable Time) (next : Time → Time) (haccepts : lib.Accepts ca.spec.schedule next)
    (hnext : tt.IsNext 0 next)
    (backupSchedule : String) (recoverWindow : Duration) (tt' : Timetable Time)
    (next' : Time → Time) (hparse : lib.parseStandard backupSchedule = .ok next')
    (hnext' : tt'.IsNext 0 next') :
    ((∃ fuel, (getScheduleTimes lib ca now fuel).isSome) ↔
      now ≤ 0 ∨ tt.Served (startSchedTime ca) now ∨ tt.Served 0 now) ∧
    ((∃ fuel, (Pitr.calculateBackupRetentionCnt lib.parseStandard backupSchedule recoverWindow
        fuel).isSome) ↔
      recoverWindow ≤ 0 ∨
        tt'.Served Pitr.retentionStart (Pitr.retentionStart + recoverWindow)) := by
  constructor
  · simp only [getScheduleTimes_of_accepts haccepts, Option.isSome_map, unmetTimes_returns_iff]
    exact hnext.reaches_iff
  · simp only [Pitr.calculateBackupRetentionCnt, hparse, retentionLoop_isSome,
      unmetTimes_returns_iff]
    rcases le_or_gt recoverWindow 0 with hle | hgt
    · have hend : Pitr.retentionStart + recoverWindow ≤ Pitr.retentionStart :=
        add_le_of_nonpos_right hle
      exact iff_of_true (Timetable.reaches_of_le hend) (Or.inl hle)
    · have hstart : (0 : Time) ≤ Pitr.retentionStart := by decide +kernel
      have hend : Pitr.retentionStart < Pitr.retentionStart + recoverWindow :=
        lt_add_of_pos_right _ hgt
      rw [or_iff_right (not_le.mpr hgt), ← hnext'.reaches_iff_served hstart hend]
      constructor
      · rintro ⟨n, hn⟩
        cases n with
        | zero => exact absurd hn (not_le.mpr hend)
        | succ n => exact ⟨n, hn⟩
      · exact Timetable.reaches_of_next

/-- Matches on the hour, searched for five years ahead. -/
def hourlyTimetable : Timetable Time where
  fires := {t | hour ∣ t}
  horizon t := t + 5 * 365 * day
  mono := by
    intro t u h
    exact Int.add_le_add_right h _

theorem hourlyTimetable_fires (t : Time) : (t / hour + 1) * hour ∈ hourlyTimetable.fires :=
  Dvd.intro_left _ rfl

theorem lt_next_hour (t : Time) : t < (t / hour + 1) * hour :=
  Int.lt_ediv_add_one_mul_self t (by decide)

theorem hourlyTimetable_unfailing : hourlyTimetable.Unfailing := by
  intro t hb
  have hle : t / hour * hour + 1 * hour ≤ t + 5 * 365 * day :=
    add_le_add (Int.ediv_mul_le t (by decide)) (by decide)
  rw [← add_mul] at hle
  exact absurd (hb _ (hourlyTimetable_fires t) (lt_next_hour t)) (not_lt.mpr hle)

theorem hourlyTimetable_isNext : hourlyTimetable.IsNext 0 fun t => (t / hour + 1) * hour where
  first t _ := by
    constructor
    · exact ⟨hourlyTimetable_fires t, lt_next_hour t⟩
    · rintro u ⟨⟨k, rfl⟩, hlt⟩
      have hk : t / hour < k := Int.ediv_lt_of_lt_mul (by decide) (by rwa [mul_comm] at hlt)
      rw [mul_comm hour k]
      exact Int.mul_le_mul_of_nonneg_right hk (by decide)
  lost t hb := absurd hb (hourlyTimetable_unfailing t)

theorem hourly_loops_return :
    (∃ fuel, (getScheduleTimes hourlyLibs nightlyCron (2 * hour) fuel).isSome) ∧
      ∃ fuel, (Pitr.calculateBackupRetentionCnt hourlyLibs.parseStandard "0 * * * *"
        Pitr.recoverWindow fuel).isSome := by
  obtain ⟨htimes, hcount⟩ := schedule_loops_return_iff hourlyLibs nightlyCron (2 * hour)
    hourlyTimetable _ (.inl rfl) hourlyTimetable_isNext "0 * * * *" Pitr.recoverWindow
    hourlyTimetable _ rfl hourlyTimetable_isNext
  exact ⟨htimes.mpr (.inr (.inl hourlyTimetable_unfailing.served)),
    hcount.mpr (.inr hourlyTimetable_unfailing.served)⟩

/-- The thirtieth of February, in which the parser sees nothing wrong. -/
def neverLibs : Libs := { hourlyLibs with parseStandard := fun _ => .ok fun _ => 0 }

def neverTimetable : Timetable Time := { hourlyTimetable with fires := ∅ }

def neverCron : CronAnything :=
  { nightlyCron with spec := { nightlyCron.spec with schedule := "0 0 30 2 *" } }

/-- Neither loop ends for a schedule without a match. -/
theorem impossible_date_loops_forever :
    neverTimetable.IsNext 0 (fun _ => 0) ∧ neverLibs.Accepts "0 0 30 2 *" (fun _ => 0) ∧
      ¬ (∃ fuel, (getScheduleTimes neverLibs neverCron (2 * hour) fuel).isSome) ∧
      ¬ ∃ fuel, (Pitr.calculateBackupRetentionCnt neverLibs.parseStandard "0 0 30 2 *"
        Pitr.recoverWindow fuel).isSome := by
  have hbarren : ∀ t, neverTimetable.Barren t := fun t u hu => absurd hu (Set.notMem_empty u)
  have hnext : neverTimetable.IsNext 0 fun _ => 0 :=
    ⟨fun t ht => absurd (hbarren t) ht, fun _ _ => rfl⟩
  have haccepts : neverLibs.Accepts neverCron.spec.schedule fun _ => 0 := .inl rfl
  have hstuck : ∀ e t : Time, 0 < e → t ≤ 0 → ¬ Timetable.Reaches (fun _ => 0) e t :=
    fun e t he ht => hnext.not_reaches ⟨0, hbarren 0, le_rfl, he⟩ ⟨0, hbarren 0, ht, he⟩
  refine ⟨hnext, haccepts, ?_, ?_⟩
  · simp only [getScheduleTimes_of_accepts haccepts, Option.isSome_map, unmetTimes_returns_iff]
    exact hstuck _ 0 (by decide) le_rfl
  · simp only [Pitr.calculateBackupRetentionCnt, neverLibs, retentionLoop_isSome,
      unmetTimes_returns_iff]
    rintro ⟨n, hn⟩
    cases n with
    | zero => exact absurd hn (by decide +kernel)
    | succ n => exact hstuck _ 0 (by decide +kernel) le_rfl ⟨n, hn⟩

end Termination

section Completeness

variable {tt : Timetable Time} {next : Time → Time} {now start : Time} {fuel : Nat}
  {unmet : List Time}

/-- The loop collects the matches before the bound, in order. -/
theorem unmetTimes_spec (hnext : tt.IsNext 0 next) (hall : tt.Unfailing)
    (h : unmetTimes next now fuel (next start) = some unmet) :
    unmet.Pairwise (· < ·) ∧ ∀ u, u ∈ unmet ↔ u ∈ tt.fires ∧ start < u ∧ u < now := by
  induction fuel generalizing start unmet with
  | zero => cases h
  | succ fuel ih =>
    obtain ⟨⟨hmatch, hlt⟩, hleast⟩ := hnext.first start (hall start)
    rw [unmetTimes] at h
    split at h
    · next hbefore =>
      obtain ⟨rest, hrest, rfl⟩ := Option.map_eq_some_iff.mp h
      obtain ⟨hpair, hmem⟩ := ih hrest
      constructor
      · exact List.pairwise_cons.mpr ⟨fun v hv => ((hmem v).mp hv).2.1, hpair⟩
      · intro u
        rw [List.mem_cons, hmem]
        constructor
        · rintro (rfl | ⟨hu, hlater, hnow⟩)
          · exact ⟨hmatch, hlt, hbefore⟩
          · exact ⟨hu, hlt.trans hlater, hnow⟩
        · rintro ⟨hu, hlater, hnow⟩
          rcases (hleast ⟨hu, hlater⟩).eq_or_lt with heq | hgt
          · exact Or.inl heq.symm
          · exact Or.inr ⟨hu, hgt, hnow⟩
    · next hpast =>
      obtain rfl : [] = unmet := Option.some.inj h
      constructor
      · exact List.Pairwise.nil
      · intro u
        constructor
        · intro hu
          cases hu
        · rintro ⟨hu, hlater, hnow⟩
          exact absurd ((hleast ⟨hu, hlater⟩).trans_lt hnow) hpast

/-- No match after the start falls between the unmet times and the next time. -/
structure Accounted (tt : Timetable Time) (start now : Time) (unmet : List Time)
    (nextScheduleTime : Time) : Prop where
  complete : ∀ u ∈ tt.fires, start < u → u ∈ unmet ∨ nextScheduleTime ≤ u
  ascending : unmet.Pairwise (· < ·)
  bounded : ∀ t ∈ unmet, t ≤ now + 1 * second

/--
The loop stops before a match that is exactly one second ahead, and the next time is searched
for after it.
-/
theorem getScheduleTimes_accounted_iff (lib : Libs) (ca : CronAnything) (now : Time)
    (tt : Timetable Time) (next : Time → Time) (haccepts : lib.Accepts ca.spec.schedule next)
    (hnext : tt.IsNext 0 next) (hall : tt.Unfailing) :
    (∃ fuel unmet nextScheduleTime,
      getScheduleTimes lib ca (now + 1 * second) fuel = some (.ok (unmet, nextScheduleTime)) ∧
        Accounted tt (startSchedTime ca) now unmet nextScheduleTime) ↔
      ¬ (startSchedTime ca < now + 1 * second ∧ now + 1 * second ∈ tt.fires) := by
  have hahead := hnext.first (now + 1 * second) (hall _)
  simp only [getScheduleTimes_of_accepts haccepts]
  constructor
  · rintro ⟨fuel, unmet, nextScheduleTime, h, hacc⟩ ⟨hstart, hfires⟩
    obtain ⟨times, htimes, heq⟩ := Option.map_eq_some_iff.mp h
    obtain ⟨rfl, rfl⟩ := Prod.mk.inj (Except.ok.inj heq)
    rcases hacc.complete _ hfires hstart with hmem | hle
    · exact absurd (((unmetTimes_spec hnext hall htimes).2 _).mp hmem).2.2 (lt_irrefl _)
    · exact absurd hahead.1.2 (not_lt.mpr hle)
  · intro hmiss
    obtain ⟨fuel, hret⟩ := unmetTimes_returns_iff.mpr
      (hnext.reaches_of_served (hall.served (s := startSchedTime ca) (e := now + 1 * second)))
    obtain ⟨unmet, hunmet⟩ := Option.isSome_iff_exists.mp hret
    obtain ⟨hpair, hmem⟩ := unmetTimes_spec hnext hall hunmet
    refine ⟨fuel, unmet, next (now + 1 * second), by rw [hunmet]; rfl, ?_, hpair, ?_⟩
    · intro u hu hstart
      rcases lt_trichotomy u (now + 1 * second) with hlt | rfl | hgt
      · exact Or.inl ((hmem u).mpr ⟨hu, hstart, hlt⟩)
      · exact absurd ⟨hstart, hu⟩ hmiss
      · exact Or.inr (hahead.2 ⟨hu, hgt⟩)
    · intro t ht
      exact ((hmem t).mp ht).2.2.le

theorem hourly_accounted :
    ∃ fuel unmet nextScheduleTime,
      getScheduleTimes hourlyLibs nightlyCron (2 * hour + 1 * second) fuel =
          some (.ok (unmet, nextScheduleTime)) ∧
        Accounted hourlyTimetable (startSchedTime nightlyCron) (2 * hour) unmet
          nextScheduleTime := by
  apply (getScheduleTimes_accounted_iff hourlyLibs nightlyCron (2 * hour) hourlyTimetable _
    (.inl rfl) hourlyTimetable_isNext hourlyTimetable_unfailing).mpr
  rintro ⟨-, hfires⟩
  exact absurd hfires (by unfold hourlyTimetable; decide)

/-- One second before two o'clock, two o'clock is neither unmet nor next. -/
theorem full_hour_skipped :
    getScheduleTimes hourlyLibs nightlyCron ((2 * hour - 1 * second) + 1 * second) 1 =
        some (.ok ([], 3 * hour)) ∧
      2 * hour ∈ hourlyTimetable.fires ∧ startSchedTime nightlyCron < 2 * hour ∧
      ¬ Accounted hourlyTimetable (startSchedTime nightlyCron) (2 * hour - 1 * second) []
        (3 * hour) := by
  have hfires : 2 * hour ∈ hourlyTimetable.fires := Dvd.intro_left 2 rfl
  have hstart : startSchedTime nightlyCron < 2 * hour := by decide
  refine ⟨rfl, hfires, hstart, fun hacc => ?_⟩
  rcases hacc.complete _ hfires hstart with hmem | hle
  · cases hmem
  · exact absurd hle (by decide)

end Completeness

end ElCarro.Cron
