import Tariff.Decimal.Rounding

/-!
# Arithmetic on decimals

Sums, products and quotients of decimals are exact where storage allows, and otherwise kept to as
many digits as it holds.

## Main definitions

* `Decimal.fit?` — an exact fraction at the largest scale at which it can be stored
* `Decimal.add?`, `Decimal.subtract?`, `Decimal.multiply?`, `Decimal.divide?`
* `Decimal.quotientMode` — how a quotient is rounded

## Main statements

* `Decimal.quotientMode_of_lt` — a quotient by a divisor of at most 64 bits is rounded half-even

## Design notes

One rule serves every operation.  The exact result is a fraction; it is stored at the largest
scale, not above the natural scale of the operation, at which its magnitude rounds half-even to a
mantissa within the bounds.  The exact fraction is rounded once, however many digits are dropped.
The natural scale is cut to `maxPlaces`, but for a sum of two numbers that both have room at the
larger of their scales: these are added as they stand, zeros behind the last place included.

The digits of a quotient come in blocks of up to nine, each as long as there is room for zeros in
its place.  With its digits in place of the zeros a block may overrun the mantissa, which then loses
the last digit again.  Where the quotient by a divisor of more than 64 bits lies just in the middle
after such a loss, it is rounded away from zero; every other middle goes to the even digit.

An operation with a zero operand does not go through that rule: a sum with zero is the other
operand as it is written, and a product or quotient of zero is written `0`.
-/

namespace Tariff.Decimal

/-- The magnitude `dividend / divisor` stored at a given scale, if it has room there.  What is
rounded to zero has no sign. -/
def fitAt? (mode : RoundingMode) (negative : Bool) (dividend divisor scale : Nat) :
    Option Decimal :=
  let kept := mode.quotient negative (dividend * tenTo scale) divisor
  ofParts? (negative && kept != 0) kept scale

/-- **Storing a fraction.**  The magnitude `dividend / divisor` at the largest scale, at most
`scale`, where it has room.  There is no result when even its whole part has too many digits. -/
def fit? (mode : RoundingMode) (negative : Bool) (dividend divisor : Nat) :
    (scale : Nat) → Option Decimal
  | 0 => fitAt? mode negative dividend divisor 0
  | scale + 1 =>
    match fitAt? mode negative dividend divisor (scale + 1) with
    | some d => some d
    | none => fit? mode negative dividend divisor scale

/-- Whether a mantissa still has room when zeros are put behind it up to a given scale. -/
def hasRoomAt (d : Decimal) (scale : Nat) : Bool :=
  d.mantissa * tenTo (scale - d.scale) < mantissaLimit

/-- The sum; the exact sum has the larger of the two scales. -/
def add? (a b : Decimal) : Option Decimal :=
  if a.isZero then some b
  else if b.isZero then some a
  else
    let scale := max a.scale b.scale
    let sum := a.mantissaAt (scale - a.scale) + b.mantissaAt (scale - b.scale)
    let places := if a.hasRoomAt scale && b.hasRoomAt scale then scale else min scale maxPlaces
    fit? .halfEven (sum < 0) sum.natAbs (tenTo scale) places

/-- The difference. -/
def subtract? (a b : Decimal) : Option Decimal :=
  a.add? b.negate

/-- The product; the exact product has the sum of the two scales. -/
def multiply? (a b : Decimal) : Option Decimal :=
  if a.isZero || b.isZero then some zero
  else
    let scale := a.scale + b.scale
    fit? .halfEven (a.negative != b.negative) (a.mantissa * b.mantissa) (tenTo scale)
      (min scale maxPlaces)

/-! ## Quotients -/

/-- The divisors from this number on have more than 64 bits. -/
def wideFrom : Nat := 18446744073709551616

/-- How many zeros, at most `most`, have room behind some digits. -/
def roomBehind (digits : Nat) : (most : Nat) → Nat
  | 0 => 0
  | most + 1 =>
    if digits * tenTo (most + 1) < mantissaLimit then most + 1 else roomBehind digits most

/-- Whether one of the next `blocks` blocks of digits of `dividend / divisor` overruns the mantissa.
So far `present` digits stand behind those of the whole quotient, and `free` more may follow. -/
def overruns (dividend divisor : Nat) : (blocks present free : Nat) → Bool
  | 0, _, _ => false
  | blocks + 1, present, free =>
    let block := roomBehind (dividend * tenTo present / divisor) (min 9 free)
    if block = 0 then false
    else if mantissaLimit ≤ dividend * tenTo (present + block) / divisor then true
    else overruns dividend divisor blocks (present + block) (free - block)

/-- How a quotient is rounded: half-even, but half-up where digits of a quotient by a divisor of
more than 64 bits overrun the mantissa.  The two differ only for a quotient just in the middle. -/
def quotientMode (a b : Decimal) : RoundingMode :=
  let free := maxPlaces + b.scale - a.scale
  if wideFrom ≤ b.mantissa && overruns a.mantissa b.mantissa free 0 free then .halfUp
  else .halfEven

/-- A quotient by a divisor of at most 64 bits is rounded half-even. -/
theorem quotientMode_of_lt (a : Decimal) {b : Decimal} (narrow : b.mantissa < wideFrom) :
    quotientMode a b = .halfEven := by
  simp [quotientMode, Nat.not_le.mpr narrow]

/-- The quotient by a number that is not zero, to as many digits as can be stored. -/
def divide? (a b : Decimal) : Option Decimal :=
  if a.isZero then some zero
  else
    fit? (quotientMode a b) (a.negative != b.negative) (a.mantissa * tenTo b.scale)
      (b.mantissa * tenTo a.scale) maxPlaces

example : multiply? ⟨false, 125, 2, by decide, by decide⟩ ⟨true, 4, 1, by decide, by decide⟩ =
    ofParts? true 500 3 := by decide

example : divide? one ⟨false, 3, 0, by decide, by decide⟩ =
    ofParts? false 3333333333333333333333333333 28 := by decide +kernel

example : divide? ⟨false, 15845632502852867518708790229, 0, by decide, by decide⟩
    ⟨false, 20000000000000000000000000, 25, by decide, by decide⟩ =
      ofParts? false 7922816251426433759354395115 0 := by decide +kernel

end Tariff.Decimal
