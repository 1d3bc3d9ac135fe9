import Tariff.Decimal.Basic

/-!
# Rounding

A quotient of natural numbers is rounded to a whole number in one of seven modes; decimals are
rounded to a number of significant digits or to a number of places after the point.

## Main definitions

* `RoundingMode` — the seven modes
* `RoundingMode.quotient` — the magnitude of a rounded quotient
* `Decimal.digitCount` — the number of digits of a mantissa
* `Decimal.roundSignificant?` — rounding to significant digits
* `Decimal.roundPlaces` — rounding to places after the point

## Main statements

* `RoundingMode.quotient_bounds` — a rounded quotient is the quotient or the next whole number
* `RoundingMode.quotient_exact` — a division without remainder is not changed by rounding

## Design notes

Signs are kept apart from magnitudes: a mode sees the sign of the number only to tell whether away
from zero is up or down.  Rounding to significant digits writes all of them, so that a short
mantissa is filled up with zeros; a carry to the next power of ten keeps the digit it gains.
-/

namespace Tariff

/-- What happens to the part of a number that does not fit. -/
inductive RoundingMode where
  /-- Away from zero. -/
  | up
  /-- Towards zero. -/
  | down
  /-- Towards the greater number. -/
  | ceiling
  /-- Towards the lesser number. -/
  | floor
  /-- To the nearest number, and from the middle away from zero. -/
  | halfUp
  /-- To the nearest number, and from the middle towards zero. -/
  | halfDown
  /-- To the nearest number, and from the middle to the even digit. -/
  | halfEven
deriving DecidableEq

namespace RoundingMode

/-- All modes. -/
def all : List RoundingMode :=
  [up, down, ceiling, floor, halfUp, halfDown, halfEven]

/-- Whether a magnitude `whole + part / divisor` with `part < divisor` is rounded to
`whole + 1`. -/
def roundsAway (mode : RoundingMode) (negative : Bool) (whole part divisor : Nat) : Bool :=
  match mode with
  | up => 0 < part
  | down => false
  | ceiling => 0 < part && !negative
  | floor => 0 < part && negative
  | halfUp => divisor ≤ 2 * part
  | halfDown => divisor < 2 * part
  | halfEven => divisor < 2 * part || (divisor == 2 * part && whole % 2 == 1)

/-- **Rounded quotient.**  The magnitude `dividend / divisor` of a number with the given sign,
rounded to a whole number. -/
def quotient (mode : RoundingMode) (negative : Bool) (dividend divisor : Nat) : Nat :=
  let whole := dividend / divisor
  if mode.roundsAway negative whole (dividend % divisor) divisor then whole + 1 else whole

/-- A rounded quotient is the whole part or the number after it. -/
theorem quotient_bounds (mode : RoundingMode) (negative : Bool) (dividend divisor : Nat) :
    dividend / divisor ≤ mode.quotient negative dividend divisor ∧
      mode.quotient negative dividend divisor ≤ dividend / divisor + 1 := by
  simp only [quotient]
  split <;> omega

/-- Nothing is rounded where nothing is left over. -/
theorem quotient_exact (mode : RoundingMode) (negative : Bool) {dividend divisor : Nat}
    (positive : 0 < divisor) (exact : dividend % divisor = 0) :
    mode.quotient negative dividend divisor = dividend / divisor := by
  have : ¬ divisor ≤ 0 := by omega
  cases mode <;> simp_all [quotient, roundsAway, Nat.ne_of_gt positive]

end RoundingMode

namespace Decimal

/-- The greatest `n ≤ bound` with `10 ^ (n - 1) ≤ mantissa`, and zero if there is none. -/
def digitCountUpTo : (bound mantissa : Nat) → Nat
  | 0, _ => 0
  | bound + 1, mantissa =>
    if tenTo bound ≤ mantissa then bound + 1 else digitCountUpTo bound mantissa

/-- The number of digits of a mantissa, of which there are at most 29; zero has none. -/
def digitCount (mantissa : Nat) : Nat :=
  digitCountUpTo 29 mantissa

/-- **Significant digits.**  The number rounded to `count` significant digits, all of which are
written.  Where the last of them stands before the point, zeros take the places after it up to the
point.  There is no result where the mantissa would be out of bounds; the zeros behind a short
mantissa may take places behind the last one. -/
def roundSignificant? (mode : RoundingMode) (count : Nat) (d : Decimal) : Option Decimal :=
  if d.isZero then some zero
  else
    let present := digitCount d.mantissa
    if present ≤ count then
      ofParts? d.negative (d.mantissa * tenTo (count - present)) (d.scale + (count - present))
    else
      let surplus := present - count
      let kept := mode.quotient d.negative d.mantissa (tenTo surplus)
      if surplus ≤ d.scale then
        ofParts? d.negative kept (d.scale - surplus)
      else
        ofParts? d.negative (kept * tenTo (surplus - d.scale)) 0

/-- **Places.**  The number with at most `places` digits after the point.  A number that is rounded
to zero loses its sign; a zero keeps it. -/
def roundPlaces (mode : RoundingMode) (places : Nat) (d : Decimal) : Decimal :=
  if d.scale ≤ places then d
  else
    let kept := mode.quotient d.negative d.mantissa (tenTo (d.scale - places))
    (ofParts? (d.negative && (d.isZero || kept != 0)) kept places).getD zero

example : roundSignificant? .halfEven 2 ⟨false, 999, 2, by decide, by decide⟩ =
    ofParts? false 100 1 := by decide

example : roundSignificant? .halfUp 3 ⟨true, 5, 0, by decide, by decide⟩ =
    ofParts? true 500 2 := by decide

end Decimal

end Tariff
