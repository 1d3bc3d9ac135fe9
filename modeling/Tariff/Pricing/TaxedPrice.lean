import Tariff.Measure.Quantity
import Tariff.Pricing.Error

/-!
# Prices with value added tax

A price is given without its tax, as an amount, or with it, as a sum; the rate of the tax gives the
other side.

## Main definitions

* `TaxedPrice` — a rate and the side that is given
* `TaxedPrice.amount`, `tax`, `sum` — the price without tax, the tax, and the price with tax
* `TaxedPrice.byAmount`, `bySum` — the same price given by the other side
* `TaxedPrice.agrees` — prices of equal rate and equal amount

## Design notes

The side that is given is never calculated, so it keeps all its digits.  Of a sum the amount is a
quotient and the tax is what remains, so that the two make up the sum again.
-/

namespace Tariff

/-- The side by which a price is given. -/
inductive Basis where
  /-- The price without tax. -/
  | amount (price : Quantity)
  /-- The price with tax. -/
  | sum (price : Quantity)

/-- The quantity on the side that is given. -/
def Basis.price : Basis → Quantity
  | amount price => price
  | sum price => price

/-- A price and the rate of its tax. -/
structure TaxedPrice where
  /-- The rate of the tax, a plain number or a percentage. -/
  taxRate : Quantity
  /-- The side that is given. -/
  basis : Basis

namespace TaxedPrice

/-- What is wrong with a rate: it must be a number that is not negative. -/
def checkRate (rate : Quantity) : Priced PUnit :=
  if !rate.isDimensionless then .error (.invalidRate (rate.text ++ " is not dimensionless"))
  else if rate.isNegative then .error (.invalidRate (rate.text ++ " is negative"))
  else .ok ⟨⟩

/-- A price on a basis, if the rate is one. -/
def of (basis : Basis) (rate : Quantity) : Priced TaxedPrice := do
  checkRate rate
  return ⟨rate, basis⟩

/-- A price given without tax. -/
def ofAmount (amount rate : Quantity) : Priced TaxedPrice :=
  of (.amount amount) rate

/-- A price given with tax. -/
def ofSum (sum rate : Quantity) : Priced TaxedPrice :=
  of (.sum sum) rate

/-- The unit of the side that is given. -/
def unit (t : TaxedPrice) : MeasureUnit := t.basis.price.unit

/-- The rate as a fraction of one. -/
def rate (t : TaxedPrice) (p : Precision) : Priced Quantity :=
  .ofMeasured (t.taxRate.convert .one p)

/-- The amount in a sum that holds a tax of the given fraction. -/
def amountInSum (sum fraction : Quantity) (p : Precision) : Measured Quantity := do
  let divisor ← (Quantity.plain .one).add fraction p
  let quotient ← sum.divide divisor p
  quotient.convert sum.unit p

/-- **Price without tax.** -/
def amount (t : TaxedPrice) (p : Precision) : Priced Quantity :=
  match t.basis with
  | .amount price => .ok price
  | .sum price => do
    let fraction ← t.rate p
    .ofMeasured (amountInSum price fraction p)

/-- The tax on an amount at a rate. -/
def taxOnAmount (amount rate : Quantity) (p : Precision) : Measured Quantity := do
  let product ← amount.multiply rate p
  product.convert amount.unit p

/-- **Tax.** -/
def tax (t : TaxedPrice) (p : Precision) : Priced Quantity :=
  match t.basis with
  | .amount price => .ofMeasured (taxOnAmount price t.taxRate p)
  | .sum price => do
    let amount ← t.amount p
    .ofMeasured (price.subtract amount p)

/-- **Price with tax.** -/
def sum (t : TaxedPrice) (p : Precision) : Priced Quantity :=
  match t.basis with
  | .amount price => do
    let tax ← t.tax p
    .ofMeasured (price.add tax p)
  | .sum price => .ok price

/-- The same price given without tax. -/
def byAmount (t : TaxedPrice) (p : Precision) : Priced TaxedPrice :=
  match t.basis with
  | .amount _ => .ok t
  | .sum _ => do
    let amount ← t.amount p
    ofAmount amount t.taxRate

/-- The same price given with tax. -/
def bySum (t : TaxedPrice) (p : Precision) : Priced TaxedPrice :=
  match t.basis with
  | .amount _ => do
    let sum ← t.sum p
    ofSum sum t.taxRate
  | .sum _ => .ok t

/-- The same price with its given side in another unit. -/
def convert (t : TaxedPrice) (unit : MeasureUnit) (p : Precision) : Priced TaxedPrice :=
  match t.basis with
  | .amount price => do
    let converted ← .ofMeasured (price.convert unit p)
    return { t with basis := .amount converted }
  | .sum price => do
    let converted ← .ofMeasured (price.convert unit p)
    return { t with basis := .sum converted }

/-- **Agreement.**  Whether two prices have rates of equal value and amounts that compare equal.  A
price whose amount or rate cannot be calculated agrees with none. -/
def agrees (a b : TaxedPrice) (p : Precision) : Bool :=
  let verdict : Priced Bool := do
    let x ← a.amount p
    let r ← a.rate p
    let y ← b.amount p
    let s ← b.rate p
    let order ← .ofMeasured (x.compare y p)
    return r.value.sameValue s.value && order == .eq
  match verdict with
  | .ok answer => answer
  | .error _ => false

/-- Agreement at the usual precision. -/
def equal (a b : TaxedPrice) : Bool :=
  a.agrees b .sixteen

/-- The price as it was given, with its rate. -/
def givenText (t : TaxedPrice) : String :=
  match t.basis with
  | .amount price => price.text ++ " + " ++ t.taxRate.text ++ " VAT"
  | .sum price => price.text ++ " incl. " ++ t.taxRate.text ++ " VAT"

/-- **Written form.**  Amount, tax and sum, or the given side where these cannot be calculated. -/
def text (t : TaxedPrice) : String :=
  match t.amount .sixteen, t.tax .sixteen, t.sum .sixteen with
  | .ok amount, .ok tax, .ok sum =>
    amount.strip.text ++ " + " ++ tax.strip.text ++ " VAT = " ++ sum.strip.text
  | _, _, _ => t.givenText

end TaxedPrice

end Tariff
