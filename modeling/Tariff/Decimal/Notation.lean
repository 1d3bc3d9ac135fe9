import Tariff.Decimal.Arithmetic
import Tariff.Text.Numeral

/-!
# The text of a decimal

## Main definitions

* `Decimal.text` — a decimal written with its sign, its point and all digits of its scale
* `Decimal.read` — a decimal read from plain text, or the fault that is found in it
* `Decimal.readScaled` — a decimal read from a text that may have a power of ten
* `Decimal.shift` — the point moved by a power of ten

## Design notes

A reader goes through the characters once and keeps what it has seen in a `Reading`.  Digits before
the point must all have room.  Behind the point the first digit without room is rounded off, a
five upwards, and the digits after it count for nothing.  A separator may stand between digits.
Where it follows the last place that has room, it ends a number that is not long: a digit behind it
is not even rounded off.

The sign of a zero is not read: `-0.00` has scale two and no sign.  A power of ten that moves digits
behind the last place rounds them off in the same way; here a zero that is left keeps the sign.
-/

namespace Tariff

/-- What can be wrong with the text of a decimal. -/
inductive NumeralFault where
  /-- There is no text. -/
  | empty
  /-- There is no digit. -/
  | noDigits
  /-- There is a second point. -/
  | secondPoint
  /-- A separator stands before the first digit. -/
  | leadingSeparator
  /-- There is a character that no number has. -/
  | unknownCharacter
  /-- The digits before the point have no room. -/
  | tooManyDigits
  /-- The number has no room after rounding. -/
  | roundedTooLarge
  /-- The power of ten is not a number. -/
  | malformedPower
  /-- The power of ten moves the point by too many places. -/
  | tooManyPlaces (places : Nat)
  /-- The power of ten makes the number too large. -/
  | tooLarge
deriving DecidableEq

namespace NumeralFault

/-- What is said about a text that is no decimal. -/
def message : NumeralFault → String
  | empty => "Invalid decimal: empty"
  | noDigits => "Invalid decimal: no digits found"
  | secondPoint => "Invalid decimal: two decimal points"
  | leadingSeparator => "Invalid decimal: must start lead with a number"
  | unknownCharacter => "Invalid decimal: unknown character"
  | tooManyDigits => "Invalid decimal: overflow from too many digits"
  | roundedTooLarge => "Invalid decimal: overflow from mantissa after rounding"
  | malformedPower => "Failed to parse"
  | tooManyPlaces places =>
    "Scale exceeds the maximum precision allowed: " ++ toString places ++ " > 28"
  | tooLarge => "Number exceeds maximum value that can be represented."

end NumeralFault

namespace Decimal

/-! ## Writing -/

/-- The digits of a mantissa, at least one of them before the point, and the point where the scale
puts it. -/
def magnitudeText (mantissa scale : Nat) : List Char :=
  let run := Text.padded (scale + 1) mantissa
  let (whole, places) := run.splitAt (run.length - scale)
  if places.isEmpty then whole else whole ++ '.' :: places

/-- A decimal as a list of characters. -/
def chars (d : Decimal) : List Char :=
  if d.negative then '-' :: magnitudeText d.mantissa d.scale else magnitudeText d.mantissa d.scale

/-- **Written form.**  The sign, the digits before the point, and as many digits behind it as the
scale says. -/
def text (d : Decimal) : String :=
  String.ofList d.chars

/-! ## Reading -/

/-- What has been seen of a number. -/
structure Reading where
  /-- The digits so far. -/
  mantissa : Nat
  /-- How many of them stand behind the point. -/
  scale : Nat
  /-- Whether there was a point. -/
  pointSeen : Bool
  /-- Whether there was a digit. -/
  digitSeen : Bool

namespace Reading

/-- Nothing has been seen. -/
def start : Reading := ⟨0, 0, false, false⟩

end Reading

/-- The fault in a character that is neither a digit nor allowed where it stands. -/
def strayFault (c : Char) : NumeralFault :=
  if c = '.' then .secondPoint
  else if c = '_' then .leadingSeparator
  else .unknownCharacter

/-- The first fault behind the last digit that counts: the characters there must still be those of
a number. -/
def tailFault? (tail : List Char) : Option NumeralFault :=
  (tail.find? fun c => !(Text.isDigit c || c == '_')).map strayFault

/-- A result, unless there is a fault behind the last digit that counts. -/
def unlessFaultIn (tail : List Char) (d : Decimal) : Except NumeralFault Decimal :=
  match tailFault? tail with
  | some fault => .error fault
  | none => .ok d

/-- One unit in the last place is added; a mantissa that is then too large loses that place. -/
def carry (negative : Bool) (mantissa scale : Nat) : Except NumeralFault Decimal :=
  let made :=
    match ofParts? negative (mantissa + 1) scale, scale with
    | some d, _ => some d
    | none, 0 => none
    | none, scale + 1 => ofParts? negative ((mantissa + 5) / 10) scale
  match made with
  | some d => .ok d
  | none => .error .roundedTooLarge

/-- The number of a reading, unless there was no digit. -/
def finish (negative : Bool) (seen : Reading) : Except NumeralFault Decimal :=
  if seen.digitSeen then
    match ofParts? (negative && seen.mantissa != 0) seen.mantissa seen.scale with
    | some d => .ok d
    | none => .error .tooManyDigits
  else
    .error .noDigits

/-- A number is long when its digits without the last one make this number or a greater one. -/
def longFrom : Nat := 1844674407370954906

/-- Whether a separator ends a number: behind the last place, unless the number is long. -/
def endsAtSeparator (seen : Reading) : Bool :=
  seen.scale == maxPlaces && seen.mantissa / 10 < longFrom

/-- **Digits and point.**  Reads the part of a number after its sign. -/
def readDigits (negative : Bool) : List Char → Reading → Except NumeralFault Decimal
  | [], seen => finish negative seen
  | c :: rest, seen =>
    if Text.isDigit c then
      let digit := Text.digitsValue [c]
      let mantissa := 10 * seen.mantissa + digit
      if seen.pointSeen then
        if seen.scale < maxPlaces ∧ mantissa < mantissaLimit then
          readDigits negative rest ⟨mantissa, seen.scale + 1, true, true⟩
        else if 5 ≤ digit then
          carry negative seen.mantissa seen.scale >>= unlessFaultIn rest
        else
          finish negative seen >>= unlessFaultIn rest
      else if mantissa < mantissaLimit then
        readDigits negative rest ⟨mantissa, 0, false, true⟩
      else
        .error .tooManyDigits
    else if c = '.' ∧ !seen.pointSeen then
      readDigits negative rest { seen with pointSeen := true }
    else if c = '_' ∧ seen.digitSeen then
      if endsAtSeparator seen then finish negative seen >>= unlessFaultIn rest
      else readDigits negative rest seen
    else
      .error (strayFault c)

/-- A decimal read from its characters: an optional sign, and digits with at most one point. -/
def readChars : List Char → Except NumeralFault Decimal
  | [] => .error .empty
  | '-' :: rest => readDigits true rest .start
  | '+' :: rest => readDigits false rest .start
  | text => readDigits false text .start

/-- **Reading.**  The decimal that a text denotes. -/
def read (text : String) : Except NumeralFault Decimal :=
  readChars text.toList

/-! ## Powers of ten -/

/-- The largest number of places by which a power of ten may move the point. -/
def maxShift : Nat := 4294967295

/-- The point moved to the left by some places; digits that come to stand behind the last place are
rounded off, a five upwards. -/
def shiftLeft (d : Decimal) (places : Nat) : Except NumeralFault Decimal :=
  if maxPlaces < places then .error (.tooManyPlaces places)
  else
    let surplus := d.scale + places - maxPlaces
    let kept := RoundingMode.halfUp.quotient d.negative d.mantissa (tenTo surplus)
    match ofParts? d.negative kept (d.scale + places - surplus) with
    | some shifted => .ok shifted
    | none => .error .tooLarge

/-- The point moved to the right by some places; zeros are put behind the last digit only when the
point has passed it. -/
def shiftRight (d : Decimal) (places : Nat) : Except NumeralFault Decimal :=
  if d.scale < places ∧ maxPlaces < places then .error (.tooManyPlaces places)
  else
    match ofParts? d.negative (d.mantissa * tenTo (places - d.scale)) (d.scale - places) with
    | some shifted => .ok shifted
    | none => .error .tooLarge

/-- **Power of ten.**  The point moved as a power says, which may have a sign. -/
def shift (d : Decimal) (power : List Char) : Except NumeralFault Decimal :=
  let read (places : List Char) : Except NumeralFault Nat :=
    match Text.readBounded? maxShift places with
    | some n => .ok n
    | none => .error .malformedPower
  match power with
  | '-' :: places => read places >>= d.shiftLeft
  | places => read places >>= d.shiftRight

/-- Whether a letter stands before a power of ten. -/
def marksPower (c : Char) : Bool :=
  c == 'e' || c == 'E'

/-- A decimal in plain form, or with a power of ten behind the letter `e` or `E`. -/
def readScaled (text : String) : Except NumeralFault Decimal :=
  match Text.cutAt marksPower text.toList with
  | (plain, none) => readChars plain
  | (base, some power) => do
    let d ← readChars base
    d.shift power

example : (ofParts? true 340 2).map text = some "-3.40" := by decide

example : (ofParts? false 5 3).map text = some "0.005" := by decide

example : (read "-12.50").toOption = ofParts? true 1250 2 := by decide

example : (readScaled "2.5E-2").toOption = ofParts? false 25 3 := by decide

end Decimal

end Tariff
