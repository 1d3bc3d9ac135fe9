import Tariff.Binary64
import Tariff.Decimal.Notation

/-!
# Decimals from binary floating-point numbers

A binary floating-point number is taken at the shortest decimal text to which no other binary
number is as near.

## Main definitions

* `Binary64.shortest` — the shortest decimal that is nearest to no other binary number
* `Decimal.ofBinary64?` — the decimal of a binary number with a sign

## Design notes

The numbers that are nearest to a given binary number form an interval, whose ends belong to it when
the mantissa is even.  The shortest decimal is a point of the coarsest decimal grid that meets the
interval; of two such points the nearer one is taken, and of two equally near ones the greater.
-/

namespace Tariff

namespace Binary64

/-- The ends of the interval of numbers that are nearest to a binary number, in quarters of its last
place. -/
def interval (b : Binary64) : Nat × Nat :=
  let below := if b.mantissa = leastNormal ∧ minPower < b.power then 1 else 2
  (4 * b.mantissa - below, 4 * b.mantissa + 2)

/-- Whether a multiple of a power of ten is nearest to a binary number, and if so how far it is from
it.  Distances of one grid can be compared. -/
def distanceTo? (b : Binary64) (multiple : Nat) (exponent : Int) : Option Nat :=
  let point := scaleBy 2 (2 - b.power) (scaleBy 10 exponent (multiple, 1))
  let (lower, upper) := b.interval
  let inside :=
    if b.mantissa % 2 = 0 then lower * point.2 ≤ point.1 ∧ point.1 ≤ upper * point.2
    else lower * point.2 < point.1 ∧ point.1 < upper * point.2
  if inside then
    some ((point.1 - 4 * b.mantissa * point.2) + (4 * b.mantissa * point.2 - point.1))
  else none

/-- The multiple of a power of ten that is nearest to a binary number and is not stored as another
one. -/
def onGrid? (b : Binary64) (exponent : Int) : Option Nat :=
  let scaled := scaleBy 10 (-exponent) b.toFraction
  let multiple := scaled.1 / scaled.2
  match b.distanceTo? multiple exponent, b.distanceTo? (multiple + 1) exponent with
  | some x, some y => if y ≤ x then some (multiple + 1) else some multiple
  | some _, none => some multiple
  | none, some _ => some (multiple + 1)
  | none, none => none

/-- The search for the coarsest grid, from the power of ten `exponent` downwards. -/
def searchGrid (b : Binary64) : (steps : Nat) → (exponent : Int) → Option (Nat × Int)
  | 0, _ => none
  | steps + 1, exponent =>
    match b.onGrid? exponent with
    | some multiple => some (multiple, exponent)
    | none => searchGrid b steps (exponent - 1)

/-- **Shortest decimal**: a multiple of a power of ten. -/
def shortest (b : Binary64) : Nat × Int :=
  if b.isZero then (0, 0) else (b.searchGrid 640 309).getD (0, 0)

end Binary64

namespace Decimal

/-- The text of a multiple of a power of ten, without a power. -/
def plainText (multiple : Nat) (exponent : Int) : List Char :=
  if 0 ≤ exponent then Text.digits (multiple * tenTo exponent.natAbs)
  else magnitudeText multiple exponent.natAbs

/-- **Decimal of a binary number**, which is read from its shortest text. -/
def ofBinary64? (negative : Bool) (b : Binary64) : Option Decimal :=
  let (multiple, power) := b.shortest
  let digits := plainText multiple power
  (readChars (if negative then '-' :: digits else digits)).toOption

example : (Binary64.nearest? (105, 10)).bind (ofBinary64? false) = ofParts? false 105 1 := by
  decide +kernel

example : (Binary64.nearest? (25, 10)).bind (ofBinary64? true) = ofParts? true 25 1 := by
  decide +kernel

end Decimal

end Tariff
