import Tariff.Decimal.Basic
import Tariff.Text.Cut
import Tariff.Text.Numeral
import Tariff.Time.Zone

/-!
# The text of an instant

## Main definitions

* `Instant.textIn` — date, time and offset in a zone, such as `2023-01-02T01:00:00+02:00`
* `Instant.textUtc` — date and time in universal time, for records
* `Instant.spokenUtc` — the same for a sentence
* `Instant.read?` — an instant from its date, time and offset

## Design notes

A fraction of a second is written in three, six or nine digits, as few as show all of it, and not at
all when it is zero.  A leap second is the sixty-first second of its minute and is written as second
60.  Years outside the range of four digits are written with a sign.

Readers are generous: blanks may stand around the parts of a date and of a time, a blank may stand
for the `T` between them, leading zeros may be missing, and `UTC` is as good as `Z`.
-/

namespace Tariff

namespace LocalTime

/-- A year, in at least four digits; a year beyond 9999 or before 0 has a sign. -/
def yearChars (year : Int) : List Char :=
  if 0 ≤ year ∧ year ≤ 9999 then Text.padded 4 year.natAbs
  else (if year < 0 then '-' else '+') :: Text.padded 4 year.natAbs

/-- The fraction of a second, with its point. -/
def fractionChars (nano : Nat) : List Char :=
  if nano = 0 then []
  else if nano % 1000000 = 0 then '.' :: Text.padded 3 (nano / 1000000)
  else if nano % 1000 = 0 then '.' :: Text.padded 6 (nano / 1000)
  else '.' :: Text.padded 9 nano

/-- The second of the minute; a leap second follows the second that it belongs to. -/
def secondOfMinute (time : LocalTime) : Nat :=
  time.second % 60 + time.nano / nanosPerSecond

/-- Date and time, with a character between them. -/
def chars (time : LocalTime) (between : Char) : List Char :=
  yearChars time.date.year ++ '-' :: Text.padded 2 time.date.month ++
    '-' :: Text.padded 2 time.date.day ++ between :: Text.padded 2 (time.second / 3600) ++
    ':' :: Text.padded 2 (time.second / 60 % 60) ++ ':' :: Text.padded 2 time.secondOfMinute ++
    fractionChars (time.nano % nanosPerSecond)

/-- An offset from universal time in hours and minutes. -/
def offsetChars (offset : Int) : List Char :=
  let minutes := offset.natAbs / 60
  (if offset < 0 then '-' else '+') ::
    (Text.padded 2 (minutes / 60) ++ ':' :: Text.padded 2 (minutes % 60))

end LocalTime

namespace Instant

/-- **Date and time in a zone**, with the offset of the zone. -/
def textIn (t : Instant) (zone : Zone) : String :=
  let offset := zone.offset t
  String.ofList ((LocalTime.ofInstant t offset).chars 'T' ++ LocalTime.offsetChars offset)

/-- Date and time in universal time, marked by a `Z`. -/
def textUtc (t : Instant) : String :=
  String.ofList ((LocalTime.ofInstant t 0).chars 'T' ++ ['Z'])

/-- Date and time in universal time, as a sentence has it. -/
def spokenUtc (t : Instant) : String :=
  String.ofList ((LocalTime.ofInstant t 0).chars ' ') ++ " UTC"

/-! ## Reading -/

/-- A number of one digit up to `width` digits behind blanks, and the text behind it. -/
def readField? (width : Nat) (text : List Char) : Option (Nat × List Char) :=
  let text := Text.trimStart text
  let run := (text.takeWhile Text.isDigit).take width
  (Text.readNat? run).map fun n => (n, text.drop run.length)

/-- The year of a date: up to four digits, or any number of digits behind a sign. -/
def readYear? (text : List Char) : Option (Int × List Char) :=
  match Text.trimStart text with
  | '-' :: rest =>
    (Text.readNat? (rest.takeWhile Text.isDigit)).map fun n =>
      (-(n : Int), rest.dropWhile Text.isDigit)
  | '+' :: rest =>
    (Text.readNat? (rest.takeWhile Text.isDigit)).map fun n =>
      ((n : Int), rest.dropWhile Text.isDigit)
  | unsigned => (readField? 4 unsigned).map fun (n, rest) => ((n : Int), rest)

/-- A mark between two numbers, with blanks before it. -/
def readMark? (mark : Char) (text : List Char) : Option (List Char) :=
  match Text.trimStart text with
  | [] => none
  | c :: rest => if c = mark then some rest else none

/-- The date at the start of a text. -/
def readDate? (text : List Char) : Option (CivilDate × List Char) := do
  let (year, rest) ← readYear? text
  let rest ← readMark? '-' rest
  let (month, rest) ← readField? 2 rest
  let rest ← readMark? '-' rest
  let (day, rest) ← readField? 2 rest
  let date : CivilDate := ⟨year, month, day⟩
  if date.inCalendar then some (date, rest) else none

/-- The nanoseconds that a fraction of a second denotes; digits behind the ninth do not count. -/
def readFraction? : List Char → Option (Nat × List Char)
  | '.' :: text =>
    let run := (text.takeWhile Text.isDigit).take 9
    (Text.readNat? run).map fun n => (n * tenTo (9 - run.length), text.dropWhile Text.isDigit)
  | text => some (0, text)

/-- The second of a minute and its nanosecond; the leap second, numbered 60, goes on where second 59
ends. -/
def leapInto (second nano : Nat) : Nat × Nat :=
  if second = 60 then (59, nano + nanosPerSecond) else (second, nano)

/-- The second of the day and the nanosecond of a time of day. -/
def readTimeOfDay? (text : List Char) : Option ((Nat × Nat) × List Char) := do
  let (hour, rest) ← readField? 2 text
  let rest ← readMark? ':' rest
  let (minute, rest) ← readField? 2 rest
  let rest ← readMark? ':' rest
  let (second, rest) ← readField? 2 rest
  let (nano, rest) ← readFraction? rest
  if hour ≤ 23 ∧ minute ≤ 59 ∧ second ≤ 60 then
    let (second, nano) := leapInto second nano
    some ((hour * 3600 + minute * 60 + second, nano), rest)
  else none

/-- The seconds of an offset of two digits of hours and two of minutes. -/
def readOffsetDigits? (text : List Char) : Option (Int × List Char) := do
  let hours ← Text.readNat? (text.take 2)
  let rest := (text.drop 2).dropWhile fun c => c == ':' || Text.isBlank c
  let minutes ← Text.readNat? (rest.take 2)
  if (text.take 2).length = 2 ∧ (rest.take 2).length = 2 ∧ minutes ≤ 59 ∧ hours ≤ 23 then
    some ((hours * 3600 + minutes * 60 : Nat), rest.drop 2)
  else none

/-- An offset from universal time, in seconds. -/
def readOffset? (text : List Char) : Option (Int × List Char) :=
  match text with
  | [] => none
  | c :: rest =>
    if (text.take 3).map Char.toUpper = ['U', 'T', 'C'] then some (0, text.drop 3)
    else if c = 'Z' ∨ c = 'z' then some (0, rest)
    else if c = '+' then readOffsetDigits? rest
    else if c = '-' ∨ c = '−' then (readOffsetDigits? rest).map fun (n, rest) => (-n, rest)
    else none

/-- What stands between a date and a time. -/
def readBetween? : List Char → Option (List Char)
  | [] => none
  | c :: rest => if c = 'T' ∨ c = 't' ∨ c = ' ' then some rest else none

/-- An instant from its characters. -/
def readChars? (text : List Char) : Option Instant := do
  let (date, rest) ← readDate? text
  let rest ← readBetween? rest
  let ((second, nano), rest) ← readTimeOfDay? rest
  let (offset, rest) ← readOffset? (Text.trimStart rest)
  if (Text.trimStart rest).isEmpty then (LocalTime.mk date second nano).toInstant? offset
  else none

/-- **Reading.**  The instant of a date, a time and an offset. -/
def read? (text : String) : Option Instant :=
  readChars? text.toList

end Instant

end Tariff
