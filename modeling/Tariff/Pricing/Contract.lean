import Tariff.Pricing.TaxedPrice
import Tariff.Time.Zone

/-!
# Contracts

A contract says what a consumer pays on top of the spot price, at which rates the parts are taxed,
and in which unit, zone and precision prices are told.

## Main definitions

* `Contract` — the terms of a contract, each with a default
* `Contract.validate` — what is wrong with the terms
* `Contract.targetUnit` — the unit in which prices are told

## Design notes

The seller's rate of tax holds for the spot price and the margin, and falls back to the general rate
where it is not stated.  Currencies are not exchanged: a contract that names one can only be used
with prices in it.
-/

namespace Tariff

/-- The terms of a contract. -/
structure Contract where
  /-- The fee for distribution. -/
  transfer : Option Quantity := none
  /-- The tax on energy. -/
  tax : Option Quantity := none
  /-- The margin of the seller. -/
  margin : Option Quantity := none
  /-- Whether the three fees are given with value added tax. -/
  feesIncludeTax : Bool := true
  /-- The rate of value added tax on transfer and energy tax. -/
  generalRate : Quantity := .zero .percent
  /-- The rate of value added tax on spot price and margin, if it is another one. -/
  sellerRate : Option Quantity := none
  /-- The currency in which prices are told, if it is fixed. -/
  currency : Option String := none
  /-- The unit of energy for which prices are told. -/
  energyUnit : String := "kWh"
  /-- Whether prices are told in hundredths of the currency. -/
  useSubunit : Bool := true
  /-- The zone in which times are told. -/
  zone : Zone := .utc
  /-- The precision of all calculations. -/
  precision : Precision := .sixteen

namespace Contract

/-- The contract that states nothing. -/
def default : Contract := {}

/-- The rate of value added tax on spot price and margin. -/
def effectiveSellerRate (c : Contract) : Quantity :=
  c.sellerRate.getD c.generalRate

/-- The fees with their names; a fee may be missing. -/
def fees (c : Contract) : List (String × Option Quantity) :=
  [("transfer", c.transfer), ("tax", c.tax), ("margin", c.margin)]

/-- The fees that are stated, with their names. -/
def statedFees (c : Contract) : List (String × Quantity) :=
  c.fees.filterMap fun (name, fee) => fee.map fun fee => (name, fee)

/-- What is wrong with a rate of tax. -/
def checkRate (name : String) (rate : Quantity) : Priced PUnit :=
  if !rate.isDimensionless || rate.isNegative then
    .error (.invalidRate (name ++ " = " ++ rate.text))
  else .ok ⟨⟩

/-- What is wrong with a fee, which must be a price for energy. -/
def checkFee (dimension : Dimension) (name : String) (fee : Quantity) : Priced PUnit :=
  if fee.dimension = dimension then .ok ⟨⟩
  else .error (.invalidContract (name ++ " = " ++ fee.text ++ " is not a price per energy"))

/-- A measured result that a term of the contract must have. -/
def termOf {α : Type} (name : String) : Measured α → Priced α
  | .ok a => .ok a
  | .error e => .error (.invalidContract (name ++ ": " ++ e.message))

/-- What is wrong with the currency, where one is stated. -/
def checkCurrency (c : Contract) : Priced PUnit :=
  match c.currency with
  | none => .ok ⟨⟩
  | some code => (termOf "currency" (MeasureUnit.currency code)).map fun _ => ⟨⟩

/-- **Validation.**  What is wrong with the terms, the rates first and the fees last. -/
def validate (c : Contract) : Priced PUnit := do
  checkRate "general_vat" c.generalRate
  checkRate "seller_vat" c.effectiveSellerRate
  let energy ← termOf "energy_unit" (MeasureUnit.energyNamed c.energyUnit)
  c.checkCurrency
  let dimension := Dimension.currency.divide energy.dimension
  c.statedFees.forM fun (name, fee) => checkFee dimension name fee

/-- What is wrong with the currency of a series, which must be that of the contract. -/
def checkSeriesCurrency (c : Contract) (code : String) : Priced PUnit :=
  match c.currency with
  | none => .ok ⟨⟩
  | some expected =>
    if expected = code then .ok ⟨⟩ else .error (.currencyMismatch expected code)

/-- Money per energy, in the hundredth part of the currency or in the currency itself. -/
def moneyPerEnergy (code energyUnit : String) (useSubunit : Bool) : Measured MeasureUnit := do
  let currency ← MeasureUnit.currency code
  let money ← if useSubunit then currency.subunit else .ok currency
  let energy ← MeasureUnit.energyNamed energyUnit
  return money.divide energy

/-- **Target unit.**  The unit in which prices of a series are told; the currency of the series may
be written in any case. -/
def targetUnit (c : Contract) (seriesCurrency : String) : Priced MeasureUnit := do
  let code := Text.upper seriesCurrency
  c.checkSeriesCurrency code
  .ofMeasured (moneyPerEnergy code c.energyUnit c.useSubunit)

end Contract

end Tariff
