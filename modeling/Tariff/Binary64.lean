import Tariff.Decimal.Rounding

/-!
# Binary floating-point numbers

Numbers with a mantissa of 53 bits and a power of two, as they are stored in 64 bits.

## Main definitions

* `Binary64` — a mantissa and a power of two, without a sign
* `Binary64.nearest?` — the binary number nearest to a fraction
* `Binary64.times?`, `Binary64.over?` — rounded products and quotients
* `Binary64.scaleTen?` — a binary number times a power of ten

## Design notes

All arithmetic is exact, on natural numbers, up to the one rounding with which each operation ends.
There is no result where it would be too large; what is too small becomes zero.

A power of ten is itself a binary number before it takes part in an operation, so that
`scaleTen?` rounds where the power is large.  The powers that are looked at end at `maxTenPower`,
and a division by a larger one is done in two steps.
-/

namespace Tariff

/-- The number `mantissa · 2 ^ power`. -/
structure Binary64 where
  /-- The mantissa, below `2 ^ 53`. -/
  mantissa : Nat
  /-- The power of two, not below that of the smallest positive number. -/
  power : Int
deriving DecidableEq

namespace Binary64

/-- The least mantissa of 53 bits. -/
def leastNormal : Nat := 4503599627370496

/-- The smallest power of two of a binary number. -/
def minPower : Int := -1074

/-- The greatest power of two of a binary number. -/
def maxPower : Int := 971

/-- The number zero. -/
def zero : Binary64 := ⟨0, minPower⟩

/-- Whether a number is zero. -/
def isZero (b : Binary64) : Bool :=
  b.mantissa == 0

/-- A fraction times a power of a base, as a fraction. -/
def scaleBy (base : Nat) (power : Int) (fraction : Nat × Nat) : Nat × Nat :=
  if 0 ≤ power then (fraction.1 * Nat.pow base power.natAbs, fraction.2)
  else (fraction.1, fraction.2 * Nat.pow base power.natAbs)

/-- The number as a fraction. -/
def toFraction (b : Binary64) : Nat × Nat :=
  scaleBy 2 b.power (b.mantissa, 1)

/-- The greatest `l` with `2 ^ l ≤ numerator / denominator`. -/
def floorLog2 (fraction : Nat × Nat) : Int :=
  let guess : Int := (fraction.1.log2 : Int) - fraction.2.log2
  let scaled := scaleBy 2 (-guess) fraction
  if scaled.2 ≤ scaled.1 then guess else guess - 1

/-- **Nearest binary number** of a fraction; in the middle between two, the one with an even
mantissa. -/
def nearest? (fraction : Nat × Nat) : Option Binary64 :=
  if fraction.1 = 0 then some zero
  else
    let power := max minPower (floorLog2 fraction - 52)
    let scaled := scaleBy 2 (-power) fraction
    let mantissa := RoundingMode.halfEven.quotient false scaled.1 scaled.2
    let result : Binary64 :=
      if mantissa = 2 * leastNormal then ⟨leastNormal, power + 1⟩ else ⟨mantissa, power⟩
    if result.power ≤ maxPower then some result else none

/-- The binary number nearest to a whole number. -/
def ofNat? (n : Nat) : Option Binary64 :=
  nearest? (n, 1)

/-- The rounded product. -/
def times? (a b : Binary64) : Option Binary64 :=
  nearest? (a.toFraction.1 * b.toFraction.1, a.toFraction.2 * b.toFraction.2)

/-- The rounded quotient. -/
def over? (a b : Binary64) : Option Binary64 :=
  nearest? (a.toFraction.1 * b.toFraction.2, a.toFraction.2 * b.toFraction.1)

/-- The greatest power of ten that is a binary number. -/
def maxTenPower : Nat := 308

/-- The rounded product with the binary number nearest to a power of ten. -/
def timesTenTo? (b : Binary64) (places : Nat) : Option Binary64 :=
  if b.isZero then some zero
  else if maxTenPower < places then none
  else (ofNat? (tenTo places)).bind b.times?

/-- The rounded quotient by the binary number nearest to a power of ten.  Where the power is too
large, it is divided in two; what is still too large leaves nothing. -/
def overTenTo? (b : Binary64) (places : Nat) : Option Binary64 :=
  let step (b : Binary64) (places : Nat) := (ofNat? (tenTo places)).bind b.over?
  if places ≤ maxTenPower then step b places
  else if places ≤ 2 * maxTenPower then
    (step b maxTenPower).bind fun first => step first (places - maxTenPower)
  else some zero

/-- **Scaling.**  A number times a power of ten, which may be negative. -/
def scaleTen? (b : Binary64) (exponent : Int) : Option Binary64 :=
  if 0 ≤ exponent then b.timesTenTo? exponent.natAbs else b.overTenTo? exponent.natAbs

example : ofNat? 9007199254740993 = some ⟨4503599627370496, 1⟩ := by decide +kernel

example : (ofNat? 105).bind (scaleTen? · (-1)) = nearest? (105, 10) := by decide +kernel

end Binary64

end Tariff
