import ElCarro.Lib.GoTime
import Mathlib.Data.List.Basic

/-! # Instants as text

The layout RFC3339 shows an instant as the date and the clock of a zone, down to the
second, with the distance of the zone from UTC. The instant can be read back from the
text up to its second, in whichever zone it was written.
-/

namespace GoTime

section Calendar

/-- The year of a day counted from the zero instant, and the place of the day in its year. The
last century of 400 years and the last year of four have a day more than the others. -/
def yearDay (d : Int) : Int × Int :=
  let r := d % 146097
  let centuries := r / 36524 - r / 36524 / 4
  let r := r - 36524 * centuries
  let fours := r / 1461
  let r := r - 1461 * fours
  let years := r / 365 - r / 365 / 4
  (400 * (d / 146097) + 100 * centuries + 4 * fours + years + 1, r - 365 * years)

/-- Month and day of the month, from the lengths of the months that are left. -/
def monthDay : List Int → Int → Nat × Nat
  | [], k => (1, k.toNat + 1)
  | len :: lens, k =>
    if k < len then (1, k.toNat + 1)
    else ((monthDay lens (k - len)).1 + 1, (monthDay lens (k - len)).2)

/-- The cycles of a day: 400 years, centuries, four years, years, and what is left. -/
theorem yearDay_cycles (d : Int) : ∃ n c q y : Int,
    (yearDay d).1 = 400 * n + 100 * c + 4 * q + y + 1 ∧
      d = 146097 * n + 36524 * c + 1461 * q + 365 * y + (yearDay d).2 ∧
      (0 ≤ c ∧ c ≤ 3) ∧ (0 ≤ q ∧ q ≤ 24) ∧ (0 ≤ y ∧ y ≤ 3) ∧
      (0 ≤ (yearDay d).2 ∧ (yearDay d).2 ≤ 365) ∧
      ((yearDay d).2 = 365 → y = 3 ∧ (q = 24 → c = 3)) := by
  let r := d % 146097
  let c := r / 36524 - r / 36524 / 4
  let r' := r - 36524 * c
  let q := r' / 1461
  let r'' := r' - 1461 * q
  let y := r'' / 365 - r'' / 365 / 4
  have hr : 0 ≤ r ∧ r ≤ 146096 := by omega
  have hc : 0 ≤ c ∧ c ≤ 3 := by omega
  have hr' : 0 ≤ r' ∧ r' ≤ 36524 ∧ (r' = 36524 → c = 3) := by omega
  have hq : 0 ≤ q ∧ q ≤ 24 := by omega
  have hr'' : 0 ≤ r'' ∧ r'' ≤ 1460 ∧ (q = 24 → r'' = 1460 → c = 3) := by omega
  have hy : 0 ≤ y ∧ y ≤ 3 := by omega
  have hk : 0 ≤ r'' - 365 * y ∧ r'' - 365 * y ≤ 365 := by omega
  refine ⟨d / 146097, c, q, y, rfl, ?_, hc, hq, hy, hk, ?_⟩
  · change d = _ + (r'' - 365 * y)
    omega
  · intro hlast
    change r'' - 365 * y = 365 at hlast
    have h1460 : r'' = 1460 := by omega
    exact ⟨by omega, fun h => hr''.2.2 h h1460⟩

theorem yearDay_days (d : Int) :
    365 * ((yearDay d).1 - 1) + ((yearDay d).1 - 1) / 4 - ((yearDay d).1 - 1) / 100 +
      ((yearDay d).1 - 1) / 400 + (yearDay d).2 = d := by
  obtain ⟨n, c, q, y, hyear, hd, hc, hq, hy, -, -⟩ := yearDay_cycles d
  have h4 : ((yearDay d).1 - 1) / 4 = 100 * n + 25 * c + q := by omega
  have h100 : ((yearDay d).1 - 1) / 100 = 4 * n + c := by omega
  have h400 : ((yearDay d).1 - 1) / 400 = n := by omega
  omega

theorem yearDay_nonneg (d : Int) : 0 ≤ (yearDay d).2 := by
  obtain ⟨_, _, _, _, -, -, -, -, -, hk, -⟩ := yearDay_cycles d
  exact hk.1

/-- The day is one of the months of its year. -/
theorem yearDay_lt (d : Int) : (yearDay d).2 < (monthLengths (yearDay d).1).sum := by
  obtain ⟨n, c, q, y, hyear, -, hc, hq, hy, hk, hlast⟩ := yearDay_cycles d
  by_cases hleap : IsLeap (yearDay d).1
  · simp only [monthLengths, if_pos hleap, List.sum_cons, List.sum_nil]
    omega
  · have hk365 : (yearDay d).2 ≠ 365 := by
      intro h
      obtain ⟨rfl, hq24⟩ := hlast h
      apply hleap
      unfold IsLeap
      omega
    simp only [monthLengths, if_neg hleap, List.sum_cons, List.sum_nil]
    omega

theorem monthDay_days {lens : List Int} {k : Int} (hk : 0 ≤ k) :
    (lens.take ((monthDay lens k).1 - 1)).sum + ((monthDay lens k).2 - 1 : Int) = k := by
  induction lens generalizing k with
  | nil =>
    simp only [monthDay, List.take_nil, List.sum_nil]
    omega
  | cons len lens ih =>
    unfold monthDay
    split
    · simp only [Nat.sub_self, List.take_zero, List.sum_nil]
      omega
    · next hlen =>
      have ih := ih (Int.sub_nonneg.mpr (Int.not_lt.mp hlen))
      have hpos : 1 ≤ (monthDay lens (k - len)).1 := by
        cases lens with
        | nil => exact Nat.le_refl 1
        | cons _ _ =>
          unfold monthDay
          split <;> simp
      obtain ⟨m, hm⟩ := Nat.exists_eq_add_of_le' hpos
      simp only [hm, Nat.add_sub_cancel, List.take_succ_cons, List.sum_cons] at ih ⊢
      omega

theorem monthDay_bounds {lens : List Int} {k : Int} (hk : 0 ≤ k) (hsum : k < lens.sum)
    (hlens : ∀ len ∈ lens, len ≤ 31) :
    (monthDay lens k).1 ≤ lens.length ∧ (monthDay lens k).2 ≤ 31 := by
  induction lens generalizing k with
  | nil => exact absurd hsum (Int.not_lt.mpr hk)
  | cons len lens ih =>
    have hlen := hlens len List.mem_cons_self
    unfold monthDay
    split
    · simp only [List.length_cons]
      omega
    · next hge =>
      rw [List.sum_cons] at hsum
      obtain ⟨hm, hd⟩ := @ih (k - len) (by omega) (by omega)
        fun l hl => hlens l (List.mem_cons_of_mem _ hl)
      exact ⟨Nat.succ_le_succ hm, hd⟩

/-- Year, month and day of the month. -/
def civil (d : Int) : Int × Nat × Nat :=
  ((yearDay d).1, monthDay (monthLengths (yearDay d).1) (yearDay d).2)

theorem date_civil (d : Int) : date (civil d).1 (civil d).2.1 (civil d).2.2 = d * day := by
  have hyear := yearDay_days d
  have hmonth : ((monthLengths (civil d).1).take ((civil d).2.1 - 1)).sum +
      ((civil d).2.2 - 1 : Int) = (yearDay d).2 := monthDay_days (yearDay_nonneg d)
  have hdays : 365 * ((yearDay d).1 - 1) + ((yearDay d).1 - 1) / 4 - ((yearDay d).1 - 1) / 100 +
      ((yearDay d).1 - 1) / 400 + ((monthLengths (civil d).1).take ((civil d).2.1 - 1)).sum +
      ((civil d).2.2 - 1) = d := by omega
  exact congrArg (· * day) hdays

theorem civil_bounds (d : Int) : (civil d).2.1 ≤ 12 ∧ (civil d).2.2 ≤ 31 := by
  apply monthDay_bounds (yearDay_nonneg d) (yearDay_lt d)
  intro len hlen
  simp only [monthLengths, List.mem_cons, List.not_mem_nil, or_false] at hlen
  split at hlen <;> omega

end Calendar

section Digits

/-- A number in decimal digits, filled up with zeros in front. -/
def pad (width n : Nat) : List Char := (Nat.toDigits 10 n).leftpad width '0'

variable {width width' m n : Nat}

theorem pad_inj (h : pad width m = pad width' n) : m = n := by
  have hread : ∀ width n, Nat.ofDigitChars 10 (pad width n) 0 = n := by
    intro width n
    rw [pad, List.leftpad, Nat.ofDigitChars_append, Nat.ofDigitChars_replicate_zero, Nat.mul_zero,
      Nat.ofDigitChars_ten_toDigits]
  rw [← hread width m, h, hread]

theorem isDigit_of_mem_pad {c : Char} (h : c ∈ pad width n) : c.isDigit := by
  rcases List.mem_append.mp h with h | h
  · rw [List.eq_of_mem_replicate h]
    rfl
  · exact Nat.isDigit_of_mem_toDigits (by decide) (by decide) h

theorem length_pad_two (hn : n < 100) : (pad 2 n).length = 2 := by
  have hlen : (Nat.toDigits 10 n).length ≤ 2 := (Nat.length_toDigits_le_iff (by decide) (by decide)).mpr hn
  rw [pad, List.leftpad, List.length_append, List.length_replicate]
  omega

end Digits

section Text

/-- The fields that the text shows, two digits each but for the year. -/
@[ext] structure Stamp where
  year : Int
  month : Nat
  day : Nat
  hour : Nat
  minute : Nat
  second : Nat
  /-- Minutes east of UTC. -/
  offset : Int
  month_lt : month < 100
  day_lt : day < 100
  hour_lt : hour < 100
  minute_lt : minute < 100
  second_lt : second < 100

def yearText (year : Int) : List Char :=
  if year < 0 then '-' :: pad 4 year.natAbs else pad 4 year.natAbs

def zoneSign (offset : Int) : Char := if offset < 0 then '-' else '+'

/-- The zone as `Z07:00` has it. -/
def zoneText (offset : Int) : List Char :=
  if offset = 0 then ['Z']
  else zoneSign offset :: (pad 2 (offset.natAbs / 60) ++ ':' :: pad 2 (offset.natAbs % 60))

theorem yearText_inj {y y' : Int} (h : yearText y = yearText y') : y = y' := by
  have hminus : ∀ n cs, pad 4 n ≠ '-' :: cs := by
    intro n cs heq
    have hdigit := isDigit_of_mem_pad (heq ▸ List.mem_cons_self : '-' ∈ pad 4 n)
    cases hdigit
  unfold yearText at h
  split at h <;> split at h
  · have := pad_inj (List.cons.inj h).2
    omega
  · exact absurd h.symm (hminus _ _)
  · exact absurd h (hminus _ _)
  · have := pad_inj h
    omega

theorem zoneSign_ne {o : Int} {c : Char} (hminus : c ≠ '-') (hplus : c ≠ '+') : zoneSign o ≠ c := by
  unfold zoneSign
  split
  · exact hminus.symm
  · exact hplus.symm

theorem zoneSign_inj {o o' : Int} (h : zoneSign o = zoneSign o') : o < 0 ↔ o' < 0 := by
  unfold zoneSign at h
  by_cases ho : o < 0 <;> by_cases ho' : o' < 0
  · exact iff_of_true ho ho'
  · rw [if_pos ho, if_neg ho'] at h
    cases h
  · rw [if_neg ho, if_pos ho'] at h
    cases h
  · exact iff_of_false ho ho'

theorem zoneText_inj {o o' : Int} (h : zoneText o = zoneText o') : o = o' := by
  unfold zoneText at h
  split at h <;> split at h
  · omega
  · exact absurd (List.cons.inj h).1.symm (zoneSign_ne (by decide) (by decide))
  · exact absurd (List.cons.inj h).1 (zoneSign_ne (by decide) (by decide))
  · obtain ⟨hsign, h⟩ := List.cons.inj h
    have hlen : ∀ n : Nat, (':' :: pad 2 (n % 60)).length = 3 := by
      intro n
      rw [List.length_cons, length_pad_two (by omega)]
    obtain ⟨hhours, h⟩ := List.append_inj' h ((hlen _).trans (hlen _).symm)
    have hsign := zoneSign_inj hsign
    have hhours := pad_inj hhours
    have hminutes := pad_inj (List.cons.inj h).2
    omega

namespace Stamp

variable (s : Stamp)

def dateText : List Char := yearText s.year ++ '-' :: (pad 2 s.month ++ '-' :: pad 2 s.day)

def clockText : List Char :=
  pad 2 s.hour ++ ':' :: (pad 2 s.minute ++ ':' :: (pad 2 s.second ++ zoneText s.offset))

def text : List Char := s.dateText ++ 'T' :: s.clockText

variable {s} {s' : Stamp}

theorem not_mem_pad {width n : Nat} {c : Char} (hc : c.isDigit = false) : c ∉ pad width n := by
  intro h
  rw [isDigit_of_mem_pad h] at hc
  cases hc

theorem mark_notMem_dateText : 'T' ∉ s.dateText := by
  unfold dateText yearText
  split <;> simp [not_mem_pad]

theorem mark_notMem_clockText : 'T' ∉ s.clockText := by
  have hsign : 'T' ≠ zoneSign s.offset := (zoneSign_ne (by decide) (by decide)).symm
  unfold clockText zoneText
  split
  · simp [not_mem_pad]
  · simp [not_mem_pad, hsign]

theorem dateText_inj (h : s.dateText = s'.dateText) :
    s.year = s'.year ∧ s.month = s'.month ∧ s.day = s'.day := by
  have hlen : ∀ s : Stamp, ('-' :: (pad 2 s.month ++ '-' :: pad 2 s.day)).length = 6 := by
    intro s
    simp [length_pad_two, s.month_lt, s.day_lt]
  obtain ⟨hyear, h⟩ := List.append_inj' h ((hlen s).trans (hlen s').symm)
  obtain ⟨hmonth, h⟩ := List.append_inj (List.cons.inj h).2
    ((length_pad_two s.month_lt).trans (length_pad_two s'.month_lt).symm)
  exact ⟨yearText_inj hyear, pad_inj hmonth, pad_inj (List.cons.inj h).2⟩

theorem clockText_inj (h : s.clockText = s'.clockText) :
    s.hour = s'.hour ∧ s.minute = s'.minute ∧ s.second = s'.second ∧ s.offset = s'.offset := by
  obtain ⟨hhour, h⟩ := List.append_inj h
    ((length_pad_two s.hour_lt).trans (length_pad_two s'.hour_lt).symm)
  obtain ⟨hminute, h⟩ := List.append_inj (List.cons.inj h).2
    ((length_pad_two s.minute_lt).trans (length_pad_two s'.minute_lt).symm)
  obtain ⟨hsecond, hzone⟩ := List.append_inj (List.cons.inj h).2
    ((length_pad_two s.second_lt).trans (length_pad_two s'.second_lt).symm)
  exact ⟨pad_inj hhour, pad_inj hminute, pad_inj hsecond, zoneText_inj hzone⟩

theorem text_inj (h : s.text = s'.text) : s = s' := by
  obtain ⟨hdate, -, hclock⟩ :=
    (List.append_cons_inj_of_notMem mark_notMem_dateText mark_notMem_clockText).mp h
  obtain ⟨hyear, hmonth, hday⟩ := dateText_inj hdate
  obtain ⟨hhour, hminute, hsecond, hoffset⟩ := clockText_inj hclock
  exact Stamp.ext hyear hmonth hday hhour hminute hsecond hoffset

/-- The second that a stamp stands for. -/
def instant : Time :=
  date s.year s.month s.day + (3600 * s.hour + 60 * s.minute + s.second - 60 * s.offset) * GoTime.second

end Stamp

/-- The fields of an instant in a zone. -/
def stamp (offset : Int) (t : Time) : Stamp :=
  let l := t + offset * minute
  let clock := (l % day / second).toNat
  have hclock : clock < 86400 := by
    unfold clock day hour minute second Time Duration
    omega
  { year := (civil (l / day)).1
    month := (civil (l / day)).2.1
    day := (civil (l / day)).2.2
    hour := clock / 3600
    minute := clock / 60 % 60
    second := clock % 60
    offset
    month_lt := Nat.lt_of_le_of_lt (civil_bounds _).1 (by decide)
    day_lt := Nat.lt_of_le_of_lt (civil_bounds _).2 (by decide)
    hour_lt := by omega
    minute_lt := by omega
    second_lt := by omega }

/-- `t.Format(time.RFC3339)` in a zone. -/
def formatRFC3339 (offset : Int) (t : Time) : String := String.ofList (stamp offset t).text

theorem stamp_instant (offset : Int) (t : Time) :
    (stamp offset t).instant = t / second * second := by
  have hdate : date (stamp offset t).year (stamp offset t).month (stamp offset t).day =
      (t + offset * minute) / day * day := date_civil _
  have hclock : (3600 * (stamp offset t).hour + 60 * (stamp offset t).minute +
      (stamp offset t).second : Int) = (t + offset * minute) % day / second := by
    have hnonneg : 0 ≤ (t + offset * minute) % day / second := by
      unfold day hour minute second Time Duration
      omega
    unfold stamp
    dsimp only
    generalize (t + offset * minute) % day / second = clock at hnonneg ⊢
    unfold Time at hnonneg
    omega
  have hoffset : (stamp offset t).offset = offset := rfl
  unfold Stamp.instant
  rw [hdate, hclock, hoffset]
  unfold day hour minute second Time Duration
  omega

theorem formatRFC3339_inj {o o' : Int} {t u : Time} (h : formatRFC3339 o t = formatRFC3339 o' u) :
    t / second = u / second := by
  have hstamp : stamp o t = stamp o' u := Stamp.text_inj (String.ofList_inj.mp h)
  have hinstant : t / second * second = u / second * second := by
    rw [← stamp_instant o t, ← stamp_instant o' u, hstamp]
  exact Int.eq_of_mul_eq_mul_right (by decide) hinstant

end Text

end GoTime
