import Tariff.Proofs.Measure.PriceUnit

/-!
# The size of units

A unit is a multiple of a product of powers of root units.  Its ratio is that
multiple, as an exact number and without any storing on the way.

## Main definitions

* `MeasureUnit.ratio` — how many products of root units make up a unit
* `Quantity.magnitude` — a quantity in root units

## Main statements

* `MeasureUnit.ratio_eq_of_same` — units built alike have one ratio
* `MeasureUnit.ratio_pricePer` — the ratio of money for energy
-/

namespace Tariff

namespace MeasureUnit

mutual

/-- **Ratio.**  How many products of root units make up a unit. -/
def ratio : MeasureUnit → ℚ
  | primitive _ _ _ => 1
  | scaled _ _ base factor => factor.toRat * base.ratio
  | derived terms _ _ _ => ratioOfTerms terms

/-- The product of the powers of the ratios of terms. -/
def ratioOfTerms : List (MeasureUnit × Int) → ℚ
  | [] => 1
  | (unit, e) :: rest => unit.ratio ^ e * ratioOfTerms rest

end

/-- **Units built alike have one ratio.** -/
theorem ratio_eq_of_same (a b : MeasureUnit) (h : a.same b = true) : a.ratio = b.ratio := by
  have holds : HoldsAlike (fun a b => a.ratio = b.ratio)
      (fun us vs => ratioOfTerms us = ratioOfTerms vs) :=
    { primitive := fun _ _ _ => rfl
      scaled := fun _ _ _ _ _ _ base value => by rw [ratio, ratio, base, value]
      derived := fun _ _ _ _ _ terms => by rw [ratio, ratio, terms]
      nil := rfl
      cons := fun _ _ _ _ _ unit rest => by rw [ratioOfTerms, ratioOfTerms, unit, rest] }
  exact holds.of_same a b h

/-! ## Money for energy -/

theorem ratio_one : one.ratio = 1 := by rw [one, ratio]

theorem ratio_money (code : String) (hundredth : Bool) :
    (money code hundredth).ratio = (moneyFactor hundredth).toRat := by
  cases hundredth <;> simp [money, moneyFactor, ratio]

/-- **The ratio of money for energy** is a quotient. -/
theorem ratio_pricePer (code : String) (hundredth : Bool) {energy : MeasureUnit}
    (h : energy ∈ energyUnits) : (pricePer code hundredth energy).ratio =
      (moneyFactor hundredth).toRat / energy.ratio := by
  rw [pricePer_eq code hundredth h, ratio, ratioOfTerms, ratioOfTerms, ratioOfTerms, ratio_money,
    zpow_one, zpow_neg_one, mul_one, div_eq_mul_inv]

end MeasureUnit

/-- **Magnitude.**  A quantity in root units. -/
def Quantity.magnitude (q : Quantity) : ℚ :=
  q.value.toRat * q.unit.ratio

end Tariff
