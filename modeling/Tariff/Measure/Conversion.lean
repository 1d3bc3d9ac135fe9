import Tariff.Measure.Precision
import Tariff.Measure.Unit.Reduction

/-!
# Conversion between units

## Main definitions

* `Conversion` — the factor from one unit to another, as a fraction
* `Conversion.apply` — a converted value
* `MeasureUnit.conversionTo` — the conversion between two units, if there is one

## Design notes

A value is multiplied by the numerator, divided by the denominator and then rounded to the
precision at hand.  Between units built alike nothing is calculated: the value stays as it is
written, also where it has more digits than the precision keeps.

Units of equal dimension need not convert: two currencies measure the same, but have different
roots.
-/

namespace Tariff

/-- The factor that takes values in one unit to values in another. -/
structure Conversion where
  /-- What a value is multiplied by. -/
  numerator : Decimal
  /-- What a value is then divided by. -/
  denominator : Decimal
deriving DecidableEq

namespace Conversion

/-- The conversion that leaves values as they are. -/
def identity : Conversion := ⟨.one, .one⟩

/-- The conversion by a fraction; sides of equal value make the identity. -/
def ofFraction (numerator denominator : Decimal) : Conversion :=
  if numerator.sameValue denominator then identity else ⟨numerator, denominator⟩

/-- Whether values are left as they are. -/
def isIdentity (c : Conversion) : Bool :=
  c.numerator.sameValue c.denominator

/-- The conversion the other way round. -/
def inverse (c : Conversion) : Conversion :=
  ⟨c.denominator, c.numerator⟩

/-- The factor as a decimal. -/
def factor (c : Conversion) (p : Precision) : Measured Decimal :=
  p.divide c.numerator c.denominator

/-- **Converted value.** -/
def apply (c : Conversion) (p : Precision) (value : Decimal) : Measured Decimal :=
  if c.isIdentity then .ok value
  else if c.denominator.isZero then .error .divisionByZero
  else do
    let scaled ← .orOverflow (value.multiply? c.numerator)
    p.divide scaled c.denominator

/-- The inverse of an inverse is the conversion itself. -/
@[simp]
theorem inverse_inverse (c : Conversion) : c.inverse.inverse = c := rfl

end Conversion

namespace MeasureUnit

/-- The conversion between two reduced units, unless they have different roots. -/
def reducedConversion (source target : MeasureUnit) (r s : Reduction) : Measured Conversion :=
  if r.roots = s.roots then
    match r.numerator.multiply? s.denominator, r.denominator.multiply? s.numerator with
    | some numerator, some denominator => .ok (.ofFraction numerator denominator)
    | _, _ => .error .overflow
  else
    .error (.unconvertible source.symbol target.symbol)

/-- **Conversion between units.** -/
def conversionTo (source target : MeasureUnit) : Measured Conversion :=
  if source.same target then .ok .identity
  else if source.compatible target then
    match source.reduce?, target.reduce? with
    | some r, some s => reducedConversion source target r s
    | _, _ => .error .overflow
  else
    .error (.unconvertible source.symbol target.symbol)

end MeasureUnit

end Tariff
