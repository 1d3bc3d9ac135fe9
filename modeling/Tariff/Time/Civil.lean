/-!
# The civil calendar

Days are counted from 1 January 1970; the calendar is Gregorian for all years.

## Main definitions

* `CivilDate` — year, month and day
* `CivilDate.toDays`, `CivilDate.ofDays` — dates and day numbers
* `CivilDate.isValid`, `CivilDate.inCalendar` — dates that exist, and those that are in range
* `weekday` — the day of the week of a day number

## Design notes

Both directions count years from 1 March, so that the leap day is the last day of a year, and in
eras of four hundred years, all of which have the same number of days.
-/

namespace Tariff

/-- A date of the civil calendar. -/
structure CivilDate where
  /-- The year; the year before year one is year zero. -/
  year : Int
  /-- The month, from one to twelve. -/
  month : Nat
  /-- The day of the month, from one. -/
  day : Nat
deriving DecidableEq

namespace CivilDate

/-- Whether a year has a leap day. -/
def isLeapYear (year : Int) : Bool :=
  year % 4 == 0 && (year % 100 != 0 || year % 400 == 0)

/-- The number of days of a month. -/
def monthLength (year : Int) (month : Nat) : Nat :=
  match month with
  | 2 => if isLeapYear year then 29 else 28
  | 4 => 30
  | 6 => 30
  | 9 => 30
  | 11 => 30
  | _ => 31

/-- Whether a date exists. -/
def isValid (date : CivilDate) : Bool :=
  1 ≤ date.month && date.month ≤ 12 && 1 ≤ date.day &&
    date.day ≤ monthLength date.year date.month

/-- Whether a date exists and can be that of an instant. -/
def inCalendar (date : CivilDate) : Bool :=
  date.isValid && -262143 ≤ date.year && date.year ≤ 262142

/-- The number of days of an era of four hundred years. -/
def daysPerEra : Int := 146097

/-- The day number of 1 March of the year zero, counted backwards from 1 January 1970. -/
def epochShift : Int := 719468

/-- **Day number** of a date. -/
def toDays (date : CivilDate) : Int :=
  let year := if date.month ≤ 2 then date.year - 1 else date.year
  let era := year / 400
  let yearOfEra := year % 400
  let monthFromMarch := (date.month + 9) % 12
  let dayOfYear : Int := (153 * monthFromMarch + 2) / 5 + date.day - 1
  let dayOfEra := yearOfEra * 365 + yearOfEra / 4 - yearOfEra / 100 + dayOfYear
  era * daysPerEra + dayOfEra - epochShift

/-- **Date** of a day number. -/
def ofDays (days : Int) : CivilDate :=
  let shifted := days + epochShift
  let era := shifted / daysPerEra
  let dayOfEra := (shifted % daysPerEra).toNat
  let yearOfEra := (dayOfEra - dayOfEra / 1460 + dayOfEra / 36524 - dayOfEra / 146096) / 365
  let dayOfYear := dayOfEra - (365 * yearOfEra + yearOfEra / 4 - yearOfEra / 100)
  let monthFromMarch := (5 * dayOfYear + 2) / 153
  let day := dayOfYear - (153 * monthFromMarch + 2) / 5 + 1
  let month := if monthFromMarch < 10 then monthFromMarch + 3 else monthFromMarch - 9
  let year := yearOfEra + era * 400
  ⟨if month ≤ 2 then year + 1 else year, month, day⟩

end CivilDate

/-- The day of the week of a day number, from zero for Sunday. -/
def weekday (days : Int) : Nat :=
  ((days + 4) % 7).toNat

example : CivilDate.toDays ⟨1970, 1, 1⟩ = 0 ∧ CivilDate.ofDays 0 = ⟨1970, 1, 1⟩ := by decide

example : CivilDate.ofDays 19416 = ⟨2023, 2, 28⟩ ∧ CivilDate.ofDays 19417 = ⟨2023, 3, 1⟩ := by
  decide

example : CivilDate.ofDays 19782 = ⟨2024, 2, 29⟩ ∧ CivilDate.toDays ⟨2024, 2, 29⟩ = 19782 := by
  decide

end Tariff
