import Mathlib.Order.Monotone.Basic
import Mathlib.Tactic.IntervalCases
import Tariff.Time.Instant

/-!
# Days and dates

The date of a day number is the date of that day: it exists, and its day number is the one
it was made of.

## Main definitions

* `CivilDate.yearStart`, `CivilDate.yearOfEra` — the first day of a year, and the year of a
  day, both counted from 1 March within an era
* `CivilDate.fromMarch` — a date by its year and day, counted from 1 March

## Main statements

* `CivilDate.yearOfEra_bounds` — a day lies in its year
* `CivilDate.toDays_ofDays` — the day number of the date of a day number
* `CivilDate.isValid_ofDays`, `CivilDate.inCalendar_ofDays` — that date exists

## Design notes

The year of a day is a quotient by the length of a common year, with a correction for leap
days.  It grows with the day, so that it is enough to look at the first and at the last day
of each of the four hundred years of an era.
-/

namespace Tariff.CivilDate

/-! ## Years of an era -/

/-- The days of an era before a year of it. -/
def yearStart (year : ℕ) : ℕ :=
  365 * year + year / 4 - year / 100 + year / 400

/-- The year of a day of an era. -/
def yearOfEra (day : ℕ) : ℕ :=
  (day - day / 1460 + day / 36524 - day / 146096) / 365

theorem yearOfEra_mono : Monotone yearOfEra := by
  refine monotone_nat_of_le_succ fun day => Nat.div_le_div_right ?_
  omega

/-- The first and the last day of a year. -/
theorem yearOfEra_ends : ∀ year < 400,
    yearOfEra (yearStart year) = year ∧ yearOfEra (yearStart (year + 1) - 1) = year := by
  decide +kernel

/-- **A day lies in its year.** -/
theorem yearOfEra_bounds {day : ℕ} (within : day < 146097) :
    yearOfEra day < 400 ∧ yearStart (yearOfEra day) ≤ day ∧ day < yearStart (yearOfEra day + 1) := by
  have last : yearOfEra 146096 = 399 := by decide
  have year : yearOfEra day < 400 := by
    have le := yearOfEra_mono (Nat.le_of_lt_succ within)
    omega
  refine ⟨year, ?_, ?_⟩
  · by_contra before
    -- a day before its year would be no later than the last day of the year before
    obtain ⟨previous, eq⟩ : ∃ previous, yearOfEra day = previous + 1 := by
      refine Nat.exists_eq_add_one.mpr (Nat.pos_of_ne_zero fun zero => ?_)
      rw [zero] at before
      exact before (Nat.zero_le _)
    rw [eq] at before
    have le : yearOfEra day ≤ yearOfEra (yearStart (previous + 1) - 1) :=
      yearOfEra_mono (by omega)
    rw [(yearOfEra_ends previous (by omega)).2] at le
    omega
  · by_contra behind
    rcases Nat.lt_or_ge (yearOfEra day + 1) 400 with next | none
    · have le := yearOfEra_mono (Nat.le_of_not_lt behind)
      rw [(yearOfEra_ends _ next).1] at le
      omega
    · have all : yearOfEra day + 1 = 400 := by omega
      rw [all] at behind
      exact behind within

/-! ## Days of a year -/

/-- The month of a day of a year, counted from March. -/
def monthOfYear (day : ℕ) : ℕ :=
  (5 * day + 2) / 153

/-- The days of a year before a month. -/
def monthStart (month : ℕ) : ℕ :=
  (153 * month + 2) / 5

/-- A date by its year and the day of this year, both counted from 1 March. -/
def fromMarch (year : ℤ) (day : ℕ) : CivilDate :=
  let month := if monthOfYear day < 10 then monthOfYear day + 3 else monthOfYear day - 9
  ⟨if month ≤ 2 then year + 1 else year, month, day - monthStart (monthOfYear day) + 1⟩

/-- **Months of a year.**  The day lies in its month, and the last day of the last month is there
in leap years only. -/
theorem monthOfYear_bounds : ∀ day < 366, monthOfYear day < 12 ∧
    monthStart (monthOfYear day) ≤ day ∧ ∀ leap : Bool, (day = 365 → leap = true) →
      day - monthStart (monthOfYear day) < match monthOfYear day with
        | 1 | 3 | 6 | 8 => 30
        | 11 => if leap then 29 else 28
        | _ => 31 := by
  decide +kernel

/-! ## Dates of days -/

/-- The date of a day number is that of a day of a year of an era. -/
theorem exists_fromMarch (days : ℤ) : ∃ (era : ℤ) (year day : ℕ),
    ofDays days = fromMarch (year + era * 400) day ∧
      days + epochShift = era * daysPerEra + (yearStart year + day : ℕ) ∧ year < 400 ∧
        yearStart year + day < yearStart (year + 1) := by
  have length : daysPerEra = 146097 := rfl
  have within : ((days + epochShift) % daysPerEra).toNat < 146097 := by
    rw [length]
    omega
  obtain ⟨year, first, last⟩ := yearOfEra_bounds within
  generalize parts : ((days + epochShift) % daysPerEra).toNat = day at *
  refine ⟨(days + epochShift) / daysPerEra, yearOfEra day, day - yearStart (yearOfEra day), ?_, ?_,
    year, by omega⟩
  · have start : yearStart (yearOfEra day) =
        365 * yearOfEra day + yearOfEra day / 4 - yearOfEra day / 100 := by
      rw [yearStart, Nat.div_eq_of_lt year, Nat.add_zero]
    rw [start, ← parts]
    rfl
  · rw [length] at parts ⊢
    omega

variable {era year : ℤ} {day : ℕ}

/-- No year has more than 366 days. -/
theorem lt_of_yearStart {year : ℕ} (room : yearStart year + day < yearStart (year + 1)) :
    day < 366 := by
  rw [yearStart, yearStart] at room
  omega

/-- A year of 366 days ends in a leap day. -/
theorem isLeapYear_of_yearStart {year : ℕ} (within : year < 400)
    (room : yearStart year + 365 < yearStart (year + 1)) :
    isLeapYear (year + era * 400 + 1) = true := by
  rw [yearStart, yearStart] at room
  simp only [isLeapYear, Bool.and_eq_true, Bool.or_eq_true, beq_iff_eq, bne_iff_ne]
  omega

/-- **The day number** of a day of a year of an era. -/
theorem toDays_fromMarch {year : ℕ} (within : year < 400) (room : day < 366) :
    toDays (fromMarch (year + era * 400) day) =
      era * daysPerEra + (yearStart year + day : ℕ) - epochShift := by
  obtain ⟨month, start, -⟩ := monthOfYear_bounds day room
  have first : yearStart year = 365 * year + year / 4 - year / 100 := by
    rw [yearStart, Nat.div_eq_of_lt within, Nat.add_zero]
  have years : ((year : ℤ) + era * 400) / 400 = era ∧ ((year : ℤ) + era * 400) % 400 = year := by omega
  rw [toDays, fromMarch]
  generalize monthOfYear day = m at *
  have before : (153 * m + 2) / 5 = monthStart m := rfl
  by_cases early : m < 10
  · have march : ¬ m + 3 ≤ 2 := by omega
    have back : (m + 3 + 9) % 12 = m := by omega
    simp only [early, march, if_true, if_false, back, years.1, years.2]
    omega
  · have january : m - 9 ≤ 2 := by omega
    have back : (m - 9 + 9) % 12 = m := by omega
    simp only [early, january, if_true, if_false, back, add_sub_cancel_right, years.1, years.2]
    omega

/-- **The day number of the date of a day number** is that number. -/
theorem toDays_ofDays (days : ℤ) : (ofDays days).toDays = days := by
  obtain ⟨era, year, day, date, eq, within, room⟩ := exists_fromMarch days
  rw [date, toDays_fromMarch within (lt_of_yearStart room)]
  omega

/-- **A day of a year** has a date; the last day of a year is there in leap years only. -/
theorem isValid_fromMarch (room : day < 366) (leap : day = 365 → isLeapYear (year + 1) = true) :
    (fromMarch year day).isValid = true := by
  obtain ⟨month, start, length⟩ := monthOfYear_bounds day room
  have length := length (isLeapYear (year + 1)) leap
  rw [fromMarch]
  generalize monthOfYear day = m at *
  generalize day - monthStart m = d at *
  interval_cases m <;> simp [isValid, monthLength] at length ⊢ <;> omega

/-- **The date of a day number exists.** -/
theorem isValid_ofDays (days : ℤ) : (ofDays days).isValid = true := by
  obtain ⟨era, year, day, date, -, within, room⟩ := exists_fromMarch days
  rw [date]
  refine isValid_fromMarch (lt_of_yearStart room) ?_
  rintro rfl
  exact isLeapYear_of_yearStart within room

/-- **It is in the calendar** if the day is. -/
theorem inCalendar_ofDays {days : ℤ} (first : -96465292 ≤ days) (last : days ≤ 95026236) :
    (ofDays days).inCalendar = true := by
  have valid := isValid_ofDays days
  obtain ⟨era, year, day, date, eq, within, room⟩ := exists_fromMarch days
  have length : daysPerEra = 146097 := rfl
  have shift : epochShift = 719468 := rfl
  rw [length, shift] at eq
  -- the first and the last year of the calendar are cut off at the turn of a year, not in March
  have years : -262143 ≤ (ofDays days).year ∧ (ofDays days).year ≤ 262142 := by
    have short := lt_of_yearStart room
    rw [date, fromMarch, monthOfYear]
    rw [yearStart] at eq
    dsimp only
    obtain rfl | rfl | between : era = -656 ∨ era = 655 ∨ -656 < era ∧ era < 655 := by omega
    · obtain late | rfl : 256 < year ∨ year = 256 := by omega
      all_goals split <;> split <;> omega
    · obtain early | rfl : year < 142 ∨ year = 142 := by omega
      all_goals split <;> split <;> omega
    · split <;> split <;> omega
  rw [inCalendar, valid, Bool.true_and, Bool.and_eq_true, decide_eq_true_eq, decide_eq_true_eq]
  exact years

end Tariff.CivilDate
