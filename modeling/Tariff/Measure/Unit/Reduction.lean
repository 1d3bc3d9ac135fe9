import Tariff.Decimal.Arithmetic
import Tariff.Measure.Unit

/-!
# Reduction to root units

Every unit is a rational multiple of a product of powers of root units.

## Main definitions

* `Reduction` — the multiple, as a fraction of decimals, and the powers of root units
* `MeasureUnit.reduce?` — the reduction of a unit

## Main statements

* `Decimal.times?_succ` — a repeated product, one factor after the other

## Design notes

The fraction is never reduced: numerators and denominators are multiplied as they come, so that
no quotient is rounded before a value is converted.  There is no reduction when one of the products
has no room in a decimal.
-/

namespace Tariff

namespace Decimal

/-- A decimal multiplied by a factor some number of times.  Once the product does not change any
more, the remaining factors are passed over. -/
def times? (start factor : Decimal) : (count : Nat) → Option Decimal
  | 0 => some start
  | count + 1 =>
    match start.multiply? factor with
    | none => none
    | some next => if next = start then some start else times? next factor count

/-- A product that a factor does not change stays as it is. -/
theorem times?_of_fixed {start factor : Decimal} (h : start.multiply? factor = some start)
    (count : Nat) : start.times? factor count = some start := by
  cases count <;> simp [times?, h]

/-- Each factor multiplies the product so far. -/
theorem times?_succ (start factor : Decimal) (count : Nat) :
    start.times? factor (count + 1) =
      (start.multiply? factor).bind fun next => next.times? factor count := by
  simp only [times?]
  cases h : start.multiply? factor with
  | none => rfl
  | some next =>
    simp only [Option.bind_some]
    split
    · next same =>
      subst same
      exact (times?_of_fixed h count).symm
    · rfl

end Decimal

/-- A fraction of decimals times powers of root units. -/
structure Reduction where
  /-- What the unit is multiplied by. -/
  numerator : Decimal
  /-- What the unit is divided by. -/
  denominator : Decimal
  /-- The exponents of the root units, in normal form. -/
  roots : Powers

namespace Reduction

/-- The reduction of the unit of plain numbers. -/
def identity : Reduction := ⟨.one, .one, []⟩

/-- The product with a power of another reduction; a negative power exchanges the two sides of its
fraction. -/
def absorb? (r other : Reduction) (exponent : Int) : Option Reduction :=
  let above := if 0 < exponent then other.numerator else other.denominator
  let below := if 0 < exponent then other.denominator else other.numerator
  match r.numerator.times? above exponent.natAbs, r.denominator.times? below exponent.natAbs with
  | some numerator, some denominator =>
    some ⟨numerator, denominator, (r.roots ++ other.roots.scale exponent).collect⟩
  | _, _ => none

end Reduction

namespace MeasureUnit

mutual

/-- **Reduction** of a unit to its root units. -/
def reduce? : MeasureUnit → Option Reduction
  | primitive symbol name dimension =>
    if (primitive symbol name dimension).isOne then some .identity
    else some { Reduction.identity with roots := [(symbol, 1)] }
  | scaled _ _ base factor =>
    match base.reduce? with
    | none => none
    | some r => (r.numerator.multiply? factor).map fun numerator => { r with numerator }
  | derived terms _ _ _ => reduceTerms? terms .identity

/-- The product of a reduction with the reductions of the terms of a product. -/
def reduceTerms? : List (MeasureUnit × Int) → Reduction → Option Reduction
  | [], r => some r
  | (unit, e) :: rest, r =>
    match unit.reduce? with
    | none => none
    | some other =>
      match r.absorb? other e with
      | none => none
      | some next => reduceTerms? rest next

end

end MeasureUnit

end Tariff
