import Tariff.Time.Instant

/-!
# Time zones

A zone has a name, and is ahead of universal time by an offset that may change over the years.

## Main definitions

* `Zone` — the name and the offsets of a zone
* `Zone.withSummer` — a zone whose clocks are put forward in its summer
* `Zone.common?` — the zones that are at hand without a database, by name

## Design notes

Which zones there are is told by a database that changes with the law, and whatever reads the name
of a zone is therefore given the zones it may find.  For the few zones of `Zone.common?` the offsets
are those of the rules now in force, for the past as well.

Summer time starts and ends on a certain Sunday of a month, at a moment that is stated in universal
time.  Where summer starts later in the year than it ends, as it does south of the equator, it lasts
over the turn of the year.
-/

namespace Tariff

/-- A Sunday of a month. -/
inductive SundayOf where
  /-- The first, second, … Sunday, counted from one. -/
  | nth (count month : Nat)
  /-- The last Sunday. -/
  | last (month : Nat)

namespace SundayOf

/-- The day number of the Sunday in a year. -/
def day (sunday : SundayOf) (year : Int) : Int :=
  match sunday with
  | nth count month =>
    let first := CivilDate.toDays ⟨year, month, 1⟩
    first + (7 - weekday first) % 7 + 7 * (count - 1)
  | last month =>
    let final := CivilDate.toDays ⟨year, month, CivilDate.monthLength year month⟩
    final - weekday final

end SundayOf

/-- A moment at which clocks are changed. -/
structure ClockChange where
  /-- The Sunday from which the moment is counted. -/
  sunday : SundayOf
  /-- Seconds from the start of that day in universal time; negative on the day before. -/
  second : Int

/-- The moment of a change in a year, in seconds. -/
def ClockChange.moment (change : ClockChange) (year : Int) : Int :=
  change.sunday.day year * secondsPerDay + change.second

/-- When clocks are put forward and back, and by how much. -/
structure SummerTime where
  /-- How far clocks are put forward, in seconds. -/
  forward : Int
  /-- When they are put forward. -/
  starts : ClockChange
  /-- When they are put back. -/
  ends : ClockChange

/-- Whether it is summer time at an instant. -/
def SummerTime.holds (summer : SummerTime) (t : Instant) : Bool :=
  let year := (LocalTime.ofInstant t 0).date.year
  let starts := summer.starts.moment year
  let ends := summer.ends.moment year
  if starts ≤ ends then starts ≤ t.second && t.second < ends
  else starts ≤ t.second || t.second < ends

/-- A time zone. -/
structure Zone where
  /-- The name of the zone. -/
  name : String
  /-- How far the zone is ahead of universal time at an instant, in seconds. -/
  offset : Instant → Int

namespace Zone

/-- A zone that is always ahead by the same number of seconds. -/
def fixed (name : String) (standard : Int) : Zone := ⟨name, fun _ => standard⟩

/-- A zone whose clocks are put forward in its summer. -/
def withSummer (name : String) (standard : Int) (summer : SummerTime) : Zone :=
  ⟨name, fun t => if summer.holds t then standard + summer.forward else standard⟩

/-- Universal time. -/
def utc : Zone := fixed "UTC" 0

/-- In Europe clocks change on the last Sundays of March and October, everywhere at one o'clock
universal time. -/
def europeanSummer : SummerTime :=
  ⟨3600, ⟨.last 3, 3600⟩, ⟨.last 10, 3600⟩⟩

/-- Finland. -/
def helsinki : Zone := withSummer "Europe/Helsinki" 7200 europeanSummer

/-- Sweden. -/
def stockholm : Zone := withSummer "Europe/Stockholm" 3600 europeanSummer

/-- The United Kingdom. -/
def london : Zone := withSummer "Europe/London" 0 europeanSummer

/-- The east of the United States, where clocks change at two o'clock local time. -/
def newYork : Zone :=
  withSummer "America/New_York" (-18000) ⟨3600, ⟨.nth 2 3, 25200⟩, ⟨.nth 1 11, 21600⟩⟩

/-- Nepal. -/
def kathmandu : Zone := fixed "Asia/Kathmandu" 20700

/-- Lord Howe Island, where clocks change by half an hour. -/
def lordHowe : Zone :=
  withSummer "Australia/Lord_Howe" 37800 ⟨1800, ⟨.nth 1 10, -30600⟩, ⟨.nth 1 4, -32400⟩⟩

/-- Zones that are at hand without a database. -/
def common : List Zone :=
  [utc, helsinki, stockholm, london, newYork, kathmandu, lordHowe]

/-- The common zone with the given name, in exactly that case. -/
def common? (name : String) : Option Zone :=
  common.find? fun zone => zone.name == name

end Zone

end Tariff
