import Mathlib.Algebra.BigOperators.Group.List.Basic
import Mathlib.Tactic.IntervalCases
import Mathlib.Tactic.Linarith
import TraceExplorer.Calendar.Stamp

/-!
# Civil dates count the days of the Gregorian calendar

The calendar by its rules: a month has its number of days, every fourth year has one more, but of
the years that end a century only every fourth one. The date of a number of days is a date of this
calendar, and the days counted from it by the rules are that number.
-/

namespace TraceExplorer.Calendar

/-- Every fourth year is a leap year; of the years that end a century only every fourth one is. -/
def isLeap (year : Int) : Bool := year % 4 = 0 && (year % 100 != 0 || year % 400 = 0)

def yearLength (year : Int) : Int := if isLeap year then 366 else 365

def monthLength (year month : Int) : Int :=
  if month = 2 then if isLeap year then 29 else 28
  else if month = 4 ∨ month = 6 ∨ month = 9 ∨ month = 11 then 30
  else 31

/-- The days from the start of year 1 to the start of a later year. -/
def daysBeforeYear (year : Int) : Int :=
  ((List.range (year - 1).toNat).map fun y => yearLength (y + 1)).sum

def daysBeforeMonth (year month : Int) : Int :=
  ((List.range (month - 1).toNat).map fun m => monthLength year (m + 1)).sum

namespace CivilDate

/-- The days from the first of January 1970 to a date, counted by years, months and days. -/
def dayNumber (d : CivilDate) : Int :=
  daysBeforeYear d.year + daysBeforeMonth d.year d.month + (d.day - 1) - daysBeforeYear 1970

structure IsOnCalendar (d : CivilDate) : Prop where
  month_pos : 1 ≤ d.month
  month_le : d.month ≤ 12
  day_pos : 1 ≤ d.day
  day_le : d.day ≤ monthLength d.year d.month

instance (d : CivilDate) : Decidable d.IsOnCalendar :=
  decidable_of_iff (1 ≤ d.month ∧ d.month ≤ 12 ∧ 1 ≤ d.day ∧ d.day ≤ monthLength d.year d.month)
    ⟨fun ⟨a, b, c, e⟩ => ⟨a, b, c, e⟩, fun ⟨a, b, c, e⟩ => ⟨a, b, c, e⟩⟩

end CivilDate

section

variable {days year doe y : Int}

/-! ## Years -/

theorem isLeap_iff : isLeap year ↔ year % 4 = 0 ∧ (year % 100 ≠ 0 ∨ year % 400 = 0) := by
  simp [isLeap]

def leapDay (year : Int) : Int := if isLeap year then 1 else 0

theorem yearLength_eq (year : Int) : yearLength year = 365 + leapDay year := by
  rw [yearLength, leapDay]
  split <;> rfl

theorem leapDay_eq (year : Int) :
    leapDay year = (year / 4 - (year - 1) / 4) - (year / 100 - (year - 1) / 100) +
      (year / 400 - (year - 1) / 400) := by
  rw [leapDay]
  split
  · have h := isLeap_iff.mp ‹_›
    omega
  · have h := isLeap_iff.not.mp ‹_›
    omega

def startOfYear (year : Int) : Int :=
  365 * (year - 1) + (year - 1) / 4 - (year - 1) / 100 + (year - 1) / 400

theorem startOfYear_succ (year : Int) :
    startOfYear (year + 1) = startOfYear year + yearLength year := by
  rw [yearLength_eq, leapDay_eq, startOfYear, startOfYear, add_sub_cancel_right]
  omega

theorem daysBeforeYear_eq (h : 1 ≤ year) : daysBeforeYear year = startOfYear year := by
  obtain ⟨n, hn⟩ := Int.eq_ofNat_of_zero_le (sub_nonneg.mpr h)
  obtain rfl : year = n + 1 := by omega
  clear h hn
  induction n with
  | zero => rfl
  | succ n ih =>
      rw [Nat.cast_succ, startOfYear_succ, ← ih, daysBeforeYear, daysBeforeYear]
      simp [List.range_succ]

/-! ## Years of an era, counted from March -/

/-- The days of an era before one of its years. -/
def startInEra (y : Int) : Int := 365 * y + y / 4 - y / 100

/-- The days of an era less the leap days among them, by which its years can be told. -/
def withoutLeapDays (doe : Int) : Int := doe - doe / 1460 + doe / 36524 - doe / 146096

theorem withoutLeapDays_le {d e : Int} (hd : 0 ≤ d) (hle : d ≤ e) (he : e ≤ 146096) :
    withoutLeapDays d ≤ withoutLeapDays e := by
  induction e, hle using Int.leInduction with
  | base => exact le_rfl
  | succ e hle ih =>
      refine (ih (by omega)).trans ?_
      rw [withoutLeapDays, withoutLeapDays]
      omega

/-- The first and the last day of each year of an era, but for the leap day at its end. -/
theorem year_of_bounds : ∀ y < 400,
    withoutLeapDays (startInEra (y : Nat)) / 365 = y ∧
      withoutLeapDays (startInEra (y + 1) - 1) / 365 = y := by
  decide +kernel

/-- A day of an era and the year that its number yields: the year has begun and is not over. -/
structure InYear (doe y : Int) : Prop where
  nonneg : 0 ≤ y
  lt_era : y < 400
  begun : startInEra y ≤ doe
  not_over : doe < startInEra y + 365 + leapDay (y + 1)

theorem inYear_of_day (hdoe : 0 ≤ doe) (h : doe < 146097) :
    InYear doe (withoutLeapDays doe / 365) := by
  have hmono {d e : Int} (hd : 0 ≤ d) (hle : d ≤ e) (he : e ≤ 146096) :
      withoutLeapDays d / 365 ≤ withoutLeapDays e / 365 :=
    Int.ediv_le_ediv (by norm_num) (withoutLeapDays_le hd hle he)
  have hzero : 0 ≤ withoutLeapDays doe / 365 := hmono le_rfl hdoe (by omega)
  have hlast : withoutLeapDays doe / 365 ≤ 399 := hmono hdoe (by omega) le_rfl
  obtain ⟨y, hy⟩ := Int.eq_ofNat_of_zero_le hzero
  rw [hy] at hlast ⊢
  refine ⟨by omega, by omega, ?_, ?_⟩
  · by_contra hlate
    obtain ⟨before, rfl⟩ : ∃ before, y = before + 1 :=
      Nat.exists_eq_succ_of_ne_zero fun hnone => by
        rw [hnone, startInEra] at hlate
        omega
    have hbefore := hmono (e := startInEra (before + 1) - 1) hdoe (by push_cast at hlate; omega)
      (by rw [startInEra]; omega)
    rw [(year_of_bounds before (by omega)).2, hy] at hbefore
    omega
  · have hleap := leapDay_eq (y + 1)
    rw [add_sub_cancel_right] at hleap
    by_contra hlate
    rcases Nat.lt_or_ge y 399 with hlt | hge
    · have hnext : startInEra (y + 1 : Nat) = startInEra y + 365 + leapDay (y + 1) := by
        rw [hleap, startInEra, startInEra]
        push_cast
        omega
      have hafter := hmono (d := startInEra (y + 1 : Nat)) (e := doe)
        (by rw [startInEra]; omega) (by omega) (by omega)
      rw [(year_of_bounds (y + 1) (by omega)).1, hy] at hafter
      omega
    · obtain rfl : y = 399 := by omega
      rw [startInEra] at hlate
      omega

/-! ## Months -/

theorem daysBeforeMonth_of_late (year : Int) {m : Int} (h0 : 0 ≤ m) (h : m < 10) :
    daysBeforeMonth year (m + 3) = (153 * m + 2) / 5 + 59 + leapDay year := by
  interval_cases m <;> simp [daysBeforeMonth, monthLength, leapDay, List.range_succ] <;>
    split <;> rfl

theorem daysBeforeMonth_of_early (year : Int) {m : Int} (h0 : 10 ≤ m) (h : m < 12) :
    daysBeforeMonth year (m - 9) = (153 * m + 2) / 5 - 306 := by
  interval_cases m <;> simp [daysBeforeMonth, monthLength, List.range_succ]

/-! ## Dates -/

namespace CivilDate

/-- The date of a day of a year, both counted from March. -/
def ofMarch (year dayOfYear : Int) : CivilDate :=
  let m := (5 * dayOfYear + 2) / 153
  let month := if m < 10 then m + 3 else m - 9
  { year := year + if month ≤ 2 then 1 else 0
    month
    day := dayOfYear - (153 * m + 2) / 5 + 1 }

variable {dayOfYear : Int}

/-- A day of a year that is counted from March is one from March on or one of the next January or
February. -/
theorem ofMarch_cases (year : Int) (h0 : 0 ≤ dayOfYear) (h : dayOfYear < 365 + leapDay (year + 1)) :
    ∃ m : Int, m = (5 * dayOfYear + 2) / 153 ∧
      (0 ≤ m ∧ m < 10 ∧
          ofMarch year dayOfYear = ⟨year, m + 3, dayOfYear - (153 * m + 2) / 5 + 1⟩ ∨
        10 ≤ m ∧ m < 12 ∧
          ofMarch year dayOfYear = ⟨year + 1, m - 9, dayOfYear - (153 * m + 2) / 5 + 1⟩) := by
  have hleap : leapDay (year + 1) ≤ 1 := by
    rw [leapDay]
    split <;> decide
  refine ⟨_, rfl, ?_⟩
  rcases lt_or_ge ((5 * dayOfYear + 2) / 153) 10 with hlate | hearly
  · refine .inl ⟨by omega, hlate, ?_⟩
    simp only [ofMarch, if_pos hlate]
    rw [if_neg (by omega), add_zero]
  · refine .inr ⟨hearly, by omega, ?_⟩
    simp only [ofMarch, if_neg (not_lt.mpr hearly)]
    rw [if_pos (by omega)]

theorem isOnCalendar_ofMarch (h0 : 0 ≤ dayOfYear) (h : dayOfYear < 365 + leapDay (year + 1)) :
    (ofMarch year dayOfYear).IsOnCalendar := by
  obtain ⟨m, hm, ⟨hm0, hm1, heq⟩ | ⟨hm0, hm1, heq⟩⟩ := ofMarch_cases year h0 h
  · rw [heq]
    refine ⟨by dsimp only; omega, by dsimp only; omega, by dsimp only; omega, ?_⟩
    dsimp only
    interval_cases m <;> simp [monthLength] <;> omega
  · rw [heq]
    refine ⟨by dsimp only; omega, by dsimp only; omega, by dsimp only; omega, ?_⟩
    dsimp only
    interval_cases m
    · simp [monthLength]
      omega
    · simp only [leapDay] at h
      simp [monthLength]
      split <;> simp_all <;> omega

theorem count_ofMarch (year : Int) (h0 : 0 ≤ dayOfYear) (h : dayOfYear < 365 + leapDay (year + 1)) :
    let d := ofMarch year dayOfYear
    startOfYear d.year + daysBeforeMonth d.year d.month + (d.day - 1) =
      startOfYear (year + 1) + dayOfYear - 306 := by
  obtain ⟨m, hm, ⟨hm0, hm1, heq⟩ | ⟨hm0, hm1, heq⟩⟩ := ofMarch_cases year h0 h
  · simp only [heq, daysBeforeMonth_of_late year hm0 hm1, startOfYear_succ, yearLength_eq]
    omega
  · simp only [heq, daysBeforeMonth_of_early (year + 1) hm0 hm1]
    omega

/-- The date of a number of days by the era and the year of the era, counted from March. -/
theorem exists_ofMarch (days : Int) :
    ∃ era day y : Int, days + epochShift = 146097 * era + day ∧ InYear day y ∧
      ofDays days = ofMarch (y + era * 400) (day - startInEra y) := by
  have hday : 0 ≤ (days + epochShift) % 146097 := Int.emod_nonneg _ (by norm_num)
  have hlt : (days + epochShift) % 146097 < 146097 := Int.emod_lt_of_pos _ (by norm_num)
  exact ⟨_, _, _, (Int.mul_ediv_add_emod _ _).symm, inYear_of_day hday hlt, rfl⟩

/-- Leap days come again after an era. -/
theorem leapDay_era (y era : Int) : leapDay (y + era * 400) = leapDay y := by
  rw [leapDay_eq, leapDay_eq]
  omega

theorem isOnCalendar_ofDays (days : Int) : (ofDays days).IsOnCalendar := by
  obtain ⟨era, day, y, -, hin, heq⟩ := exists_ofMarch days
  have hbegun := hin.begun
  have hover := hin.not_over
  rw [heq]
  refine isOnCalendar_ofMarch (by omega) ?_
  rw [add_right_comm, leapDay_era]
  omega

theorem count_ofDays (days : Int) :
    let d := ofDays days
    startOfYear d.year + daysBeforeMonth d.year d.month + (d.day - 1) =
      days + startOfYear 1970 := by
  obtain ⟨era, day, y, hdays, hin, heq⟩ := exists_ofMarch days
  have hbegun := hin.begun
  have hover := hin.not_over
  have hera := hin.lt_era
  have hnonneg := hin.nonneg
  have hcount := count_ofMarch (y + era * 400) (show 0 ≤ day - startInEra y by omega)
    (by rw [add_right_comm, leapDay_era]; omega)
  dsimp only at hcount ⊢
  rw [heq, hcount, startOfYear, startOfYear]
  rw [epochShift] at hdays
  rw [startInEra]
  omega

theorem count_mem_year {d : CivilDate} (h : d.IsOnCalendar) :
    1 ≤ daysBeforeMonth d.year d.month + d.day ∧
      daysBeforeMonth d.year d.month + d.day ≤ yearLength d.year := by
  obtain ⟨hmonth, hmonth', hday, hday'⟩ := h
  rw [yearLength_eq]
  rcases lt_or_ge 2 d.month with hlate | hearly
  · have hbefore := daysBeforeMonth_of_late d.year (m := d.month - 3) (by omega) (by omega)
    have hleap : 0 ≤ leapDay d.year := by
      rw [leapDay]
      split <;> decide
    rw [sub_add_cancel] at hbefore
    rw [hbefore]
    rw [monthLength, if_neg (by omega)] at hday'
    split at hday' <;> omega
  · have hbefore := daysBeforeMonth_of_early d.year (m := d.month + 9) (by omega) (by omega)
    rw [add_sub_cancel_right] at hbefore
    rw [hbefore]
    rw [monthLength] at hday'
    rw [leapDay]
    split at hday' <;> split at hday' <;> omega

/-- The years 1 to 9999 are those in which a stamp can be written. -/
theorem year_ofDays (h0 : -719162 ≤ days) (h1 : days < 2932897) :
    1 ≤ (ofDays days).year ∧ (ofDays days).year ≤ 9999 := by
  have hcount := count_ofDays days
  obtain ⟨hfirst, hlast⟩ := count_mem_year (isOnCalendar_ofDays days)
  have hnext := startOfYear_succ (ofDays days).year
  have hepoch : startOfYear 1970 = 719162 := rfl
  dsimp only at hcount
  have hlow : 0 < startOfYear ((ofDays days).year + 1) := by omega
  have hhigh : startOfYear (ofDays days).year < 3652059 := by omega
  rw [startOfYear] at hlow hhigh
  omega

theorem dayNumber_ofDays (h0 : -719162 ≤ days) (h1 : days < 2932897) :
    (ofDays days).dayNumber = days := by
  have hcount := count_ofDays days
  dsimp only at hcount
  rw [dayNumber, daysBeforeYear_eq (year_ofDays h0 h1).1, daysBeforeYear_eq (by norm_num)]
  omega

end CivilDate

end

end TraceExplorer.Calendar
