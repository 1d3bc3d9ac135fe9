import Tariff.Time.Civil

/-!
# Instants

An instant is a point in time: a second, counted from the start of 1970 in universal time, and the
nanosecond within it.

## Main definitions

* `Instant` — a second within the range of the calendar and a nanosecond
* `Instant.before` — the order of instants
* `Instant.nanosUntil` — the time from one instant to another
* `Instant.plusMinutes?` — an instant some minutes later
* `LocalTime` — date and time of day at an offset from universal time

## Main statements

* `Instant.before_iff_nanos_lt`, `Instant.nanosUntil_eq` — outside leap seconds an instant is a
  count of nanoseconds

## Design notes

The range is that of dates from year -262143 to year 262142.  It is a field of the structure: an
instant at hand is always one that can be written as a date.

All days have the same number of seconds.  A leap second is written behind the last second of some
minute and has no number of its own: it belongs to the second before it, whose nanoseconds then go
on to two thousand millions.  Between two instants it is counted where it lies between their times
of day, and whoever moves away from it starts from the second that it belongs to.
-/

namespace Tariff

/-- A point in time. -/
structure Instant where
  /-- Seconds since the start of 1970. -/
  second : Int
  /-- Nanoseconds since the start of the second; from a thousand millions on they belong to a leap
  second behind it. -/
  nano : Nat
  /-- Not before the first day of year -262143. -/
  second_ge : -8334601228800 ≤ second := by decide
  /-- Not after the last day of year 262142. -/
  second_le : second ≤ 8210266876799 := by decide
  /-- At most one leap second follows a second. -/
  nano_lt : nano < 2000000000 := by decide
deriving DecidableEq

/-- Nanoseconds in a second. -/
def nanosPerSecond : Nat := 1000000000

/-- Nanoseconds in a minute. -/
def nanosPerMinute : Nat := 60000000000

/-- Seconds in a day. -/
def secondsPerDay : Int := 86400

namespace Instant

/-- The instant with the given parts, if they are within the range. -/
def ofParts? (second : Int) (nano : Nat) : Option Instant :=
  if h : -8334601228800 ≤ second ∧ second ≤ 8210266876799 ∧ nano < 2000000000 then
    some ⟨second, nano, h.1, h.2.1, h.2.2⟩
  else
    none

/-- Whether an instant lies in a leap second. -/
def isLeap (t : Instant) : Bool :=
  nanosPerSecond ≤ t.nano

/-- Nanoseconds since the start of 1970.  A leap second runs alongside the second that follows
it. -/
def nanos (t : Instant) : Int :=
  t.second * nanosPerSecond + t.nano

/-- The second of the day in universal time. -/
def secondOfDay (t : Instant) : Int :=
  t.second % secondsPerDay

/-- **Order.**  Whether one instant comes before another. -/
def before (a b : Instant) : Bool :=
  a.second < b.second || (a.second == b.second && a.nano < b.nano)

/-- Whether one instant comes before another or is the same. -/
def upTo (a b : Instant) : Bool :=
  !b.before a

/-- **Time between instants**, in nanoseconds; negative where the second one comes first.  A leap
second is counted where it lies between the times of day of the two. -/
def nanosUntil (a b : Instant) : Int :=
  let span := b.nanos - a.nanos
  if a.secondOfDay < b.secondOfDay ∧ a.isLeap then span + nanosPerSecond
  else if b.secondOfDay < a.secondOfDay ∧ b.isLeap then span - nanosPerSecond
  else span

/-- The instant some minutes later, if it is within the range.  After no time at all it is the same
instant; after some time a leap second is left behind. -/
def plusMinutes? (t : Instant) (minutes : Nat) : Option Instant :=
  if minutes = 0 then some t
  else ofParts? (t.second + minutes * 60) (t.nano % nanosPerSecond)

/-- Parts within the range make an instant of just these parts. -/
theorem ofParts?_eq_some_iff {second : Int} {nano : Nat} {t : Instant} :
    ofParts? second nano = some t ↔ t.second = second ∧ t.nano = nano := by
  obtain ⟨s, n, lower, upper, bound⟩ := t
  constructor
  · intro h
    simp only [ofParts?] at h
    split at h
    · simp only [Option.some.injEq, Instant.mk.injEq] at h
      exact ⟨h.1.symm, h.2.symm⟩
    · exact absurd h (by simp)
  · rintro ⟨rfl, rfl⟩
    exact dif_pos ⟨lower, upper, bound⟩

/-- An instant outside leap seconds has fewer nanoseconds than a second. -/
theorem nano_lt_of_not_isLeap {t : Instant} (h : t.isLeap = false) : t.nano < 1000000000 := by
  have := of_decide_eq_false h
  simp only [nanosPerSecond] at this
  omega

/-- Outside leap seconds the order is that of counts of nanoseconds. -/
theorem before_iff_nanos_lt {a b : Instant} (ha : a.isLeap = false) (hb : b.isLeap = false) :
    a.before b = true ↔ a.nanos < b.nanos := by
  have := nano_lt_of_not_isLeap ha
  have := nano_lt_of_not_isLeap hb
  simp only [before, nanos, nanosPerSecond, Bool.or_eq_true, Bool.and_eq_true, decide_eq_true_eq,
    beq_iff_eq]
  omega

/-- Outside leap seconds the time between instants is a difference of counts. -/
theorem nanosUntil_eq {a b : Instant} (ha : a.isLeap = false) (hb : b.isLeap = false) :
    a.nanosUntil b = b.nanos - a.nanos := by
  simp [nanosUntil, ha, hb]

end Instant

/-- Date and time of day at an offset from universal time. -/
structure LocalTime where
  /-- The date. -/
  date : CivilDate
  /-- The second of the day. -/
  second : Nat
  /-- The nanosecond of the second, which may go on into a leap second. -/
  nano : Nat

namespace LocalTime

/-- What a clock shows that is some seconds ahead of universal time. -/
def ofInstant (t : Instant) (offset : Int) : LocalTime :=
  let shown := t.second + offset
  ⟨CivilDate.ofDays (shown / secondsPerDay), (shown % secondsPerDay).toNat, t.nano⟩

/-- The instant at which such a clock shows a time. -/
def toInstant? (time : LocalTime) (offset : Int) : Option Instant :=
  if time.date.inCalendar then
    Instant.ofParts? (time.date.toDays * secondsPerDay + time.second - offset) time.nano
  else none

end LocalTime

example : CivilDate.toDays ⟨-262143, 1, 1⟩ * secondsPerDay = -8334601228800 := by decide

example : CivilDate.toDays ⟨262143, 1, 1⟩ * secondsPerDay = 8210266876799 + 1 := by decide

end Tariff
