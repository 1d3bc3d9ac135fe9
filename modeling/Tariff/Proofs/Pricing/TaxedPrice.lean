import Tariff.Pricing.TaxedPrice
import Tariff.Proofs.Measure.Quantity

/-!
# Prices with tax on numbers

## Main definitions

* `TaxedPrice.quotients` — the quotient that a price with tax takes

## Main statements

* `TaxedPrice.taxOnAmount_steps`, `TaxedPrice.sum_of_amount` — the steps to a tax, and to a price
  with tax
* `TaxedPrice.sum_mono` — prices with tax stand in the order of the amounts

## Design notes

The tax on a price is the product with the rate, told in the unit of the price.
That unit changes even for a rate in percent, so that the product goes through a
conversion with a quotient of its own.
-/

namespace Tariff.TaxedPrice

variable {t : TaxedPrice} {amount rate price tax result : Quantity} {basis : Basis} {p : Precision}

/-- A rate is a number that is not negative. -/
theorem checkRate_eq_ok :
    checkRate rate = .ok ⟨⟩ ↔ rate.isDimensionless = true ∧ rate.isNegative = false := by
  rw [checkRate]
  split
  · simp_all
  · split <;> simp_all

theorem rate_nonneg (h : checkRate rate = .ok ⟨⟩) : 0 ≤ rate.value.toRat :=
  Decimal.toRat_nonneg (checkRate_eq_ok.mp h).2

theorem of_eq_ok : of basis rate = .ok t ↔ checkRate rate = .ok ⟨⟩ ∧ t = ⟨rate, basis⟩ := by
  rw [of, Outcome.bind_eq_ok]
  constructor
  · rintro ⟨⟨⟩, check, h⟩
    exact ⟨check, (Outcome.pure_eq_ok.mp h).symm⟩
  · rintro ⟨check, rfl⟩
    exact ⟨⟨⟩, check, rfl⟩

/-- **The steps of a tax**: a product of numbers, which the conversion into the unit of the amount
is applied to. -/
theorem taxOnAmount_steps : taxOnAmount amount rate p = .ok tax ↔
    ∃ conversion, (amount.unit.multiply rate.unit).conversionTo amount.unit = .ok conversion ∧
      ∃ product value, p.multiply amount.value rate.value = .ok product ∧
        conversion.apply p product = .ok value ∧ tax = ⟨value, amount.unit⟩ := by
  rw [taxOnAmount, Outcome.bind_eq_ok]
  constructor
  · rintro ⟨_, multiplied, converted⟩
    obtain ⟨product, hproduct, rfl⟩ := Quantity.multiply_eq_ok.mp multiplied
    obtain ⟨conversion, converts, value, applied, rfl⟩ := Quantity.convert_eq_ok.mp converted
    exact ⟨conversion, converts, product, value, hproduct, applied, rfl⟩
  · rintro ⟨conversion, converts, product, value, hproduct, applied, rfl⟩
    exact ⟨_, Quantity.multiply_eq_ok.mpr ⟨product, hproduct, rfl⟩,
      Quantity.convert_eq_ok.mpr ⟨conversion, converts, value, applied, rfl⟩⟩

/-- A price given with tax is not calculated. -/
theorem sum_of_sum : sum ⟨rate, .sum price⟩ p = .ok result ↔ price = result := by
  simp only [sum, Except.ok.injEq]

/-- **A price given without tax** is summed up with the tax on it. -/
theorem sum_of_amount : sum ⟨rate, .amount price⟩ p = .ok result ↔
    ∃ tax, taxOnAmount price rate p = .ok tax ∧ price.add tax p = .ok result := by
  simp only [sum, TaxedPrice.tax, Outcome.bind_eq_ok, Outcome.ofMeasured_eq_ok]

/-- A price with tax has the unit in which the price is given. -/
theorem unit_sum (h : t.sum p = .ok result) : result.unit = t.unit := by
  obtain ⟨rate, price | price⟩ := t
  · obtain ⟨tax, -, sum⟩ := sum_of_amount.mp h
    obtain ⟨-, _, -, _, -, rfl⟩ := Quantity.add_eq_ok.mp sum
    rfl
  · rw [← sum_of_sum.mp h]
    rfl

/-- The tax on an amount has the unit of the amount. -/
theorem unit_taxOnAmount (h : taxOnAmount amount rate p = .ok tax) : tax.unit = amount.unit := by
  obtain ⟨_, -, _, _, -, -, rfl⟩ := taxOnAmount_steps.mp h
  rfl

/-! ## Quotients and order -/

/-- **The quotients that a price with tax takes**: the one by which the tax on an amount is told in
the unit of the amount.  For a price given with tax nothing is calculated. -/
def quotients (t : TaxedPrice) (p : Precision) : Set (Decimal × Decimal) :=
  {q | ∃ amount product, t.basis = .amount amount ∧ amount.multiply t.taxRate p = .ok product ∧
    q ∈ product.quotients amount.unit}

/-- Denominators of at most 64 bits leave no choice. -/
theorem dividesHalfEven_of_lt
    (narrow : ∀ conversion, (t.unit.multiply t.taxRate.unit).conversionTo t.unit = .ok conversion →
      conversion.denominator.mantissa < Decimal.wideFrom) : p.DividesHalfEven (t.quotients p) := by
  rintro all a b ⟨amount, product, basis, hproduct, mem⟩
  obtain ⟨_, -, rfl⟩ := Quantity.multiply_eq_ok.mp hproduct
  have unit : t.unit = amount.unit := by rw [TaxedPrice.unit, basis, Basis.price]
  rw [unit] at narrow
  exact Quantity.dividesHalfEven_of_lt narrow all a b mem

/-- The quotient of the tax on an amount. -/
theorem dividesHalfEven_taxOnAmount {product : Quantity}
    (even : p.DividesHalfEven (quotients ⟨rate, .amount amount⟩ p))
    (hproduct : amount.multiply rate p = .ok product) :
    p.DividesHalfEven (product.quotients amount.unit) :=
  even.mono fun _ mem => ⟨amount, product, rfl, hproduct, mem⟩

/-- It is that of the conversion applied to the product. -/
theorem dividesHalfEven_steps {product : Decimal} {conversion : Conversion}
    (even : p.DividesHalfEven (quotients ⟨rate, .amount amount⟩ p))
    (hproduct : p.multiply amount.value rate.value = .ok product)
    (converts : (amount.unit.multiply rate.unit).conversionTo amount.unit = .ok conversion) :
    p.DividesHalfEven (conversion.quotients product) :=
  Quantity.dividesHalfEven_conversion (dividesHalfEven_taxOnAmount even
    (Quantity.multiply_eq_ok.mpr ⟨product, hproduct, rfl⟩)) converts

variable {amount' price' tax' result' : Quantity}

/-- **Taxes stand in the order of the amounts** on which they are paid. -/
theorem taxOnAmount_mono {conversion : Conversion}
    (converts : (amount.unit.multiply rate.unit).conversionTo amount.unit = .ok conversion)
    (nonneg : 0 ≤ conversion.numerator.toRat ∧ 0 ≤ conversion.denominator.toRat)
    (rateNonneg : 0 ≤ rate.value.toRat) (unit : amount'.unit = amount.unit)
    (even : p.DividesHalfEven (quotients ⟨rate, .amount amount⟩ p))
    (even' : p.DividesHalfEven (quotients ⟨rate, .amount amount'⟩ p))
    (le : amount.value.toRat ≤ amount'.value.toRat) (h : taxOnAmount amount rate p = .ok tax)
    (h' : taxOnAmount amount' rate p = .ok tax') : tax.value.toRat ≤ tax'.value.toRat := by
  obtain ⟨same, hsame, product, value, hproduct, applied, rfl⟩ := taxOnAmount_steps.mp h
  obtain ⟨same', hsame', product', value', hproduct', applied', rfl⟩ := taxOnAmount_steps.mp h'
  have half := dividesHalfEven_steps even hproduct hsame
  have half' := dividesHalfEven_steps even' hproduct' hsame'
  -- both taxes are told in one unit, by one conversion
  rw [unit] at hsame'
  obtain rfl := Except.ok.inj (converts.symm.trans hsame)
  obtain rfl := Except.ok.inj (converts.symm.trans hsame')
  have products : product.toRat ≤ product'.toRat := by
    rw [Precision.toRat_multiply hproduct, Precision.toRat_multiply hproduct']
    exact p.keep_mono (mul_le_mul_of_nonneg_right le rateNonneg)
  exact Conversion.apply_mono nonneg.1 nonneg.2 half half' products applied applied'

/-- **Prices with tax stand in the order of the amounts.** -/
theorem sum_mono {conversion : Conversion}
    (converts : (price.unit.multiply rate.unit).conversionTo price.unit = .ok conversion)
    (nonneg : 0 ≤ conversion.numerator.toRat ∧ 0 ≤ conversion.denominator.toRat)
    (rateNonneg : 0 ≤ rate.value.toRat) (unit : price'.unit = price.unit)
    (even : p.DividesHalfEven (quotients ⟨rate, .amount price⟩ p))
    (even' : p.DividesHalfEven (quotients ⟨rate, .amount price'⟩ p))
    (le : price.value.toRat ≤ price'.value.toRat) (h : sum ⟨rate, .amount price⟩ p = .ok result)
    (h' : sum ⟨rate, .amount price'⟩ p = .ok result') :
    result.value.toRat ≤ result'.value.toRat := by
  obtain ⟨tax, htax, sum⟩ := sum_of_amount.mp h
  obtain ⟨tax', htax', sum'⟩ := sum_of_amount.mp h'
  have taxes := taxOnAmount_mono converts nonneg rateNonneg unit even even' le htax htax'
  rw [(Quantity.toRat_add (unit_taxOnAmount htax) sum).2,
    (Quantity.toRat_add (unit_taxOnAmount htax') sum').2]
  exact p.keep_mono (add_le_add le taxes)

/-- A price with tax was converted on the way. -/
theorem exists_conversion (h : sum ⟨rate, .amount price⟩ p = .ok result) :
    ∃ conversion, (price.unit.multiply rate.unit).conversionTo price.unit = .ok conversion := by
  obtain ⟨tax, htax, -⟩ := sum_of_amount.mp h
  obtain ⟨conversion, converts, -⟩ := taxOnAmount_steps.mp htax
  exact ⟨conversion, converts⟩

end Tariff.TaxedPrice
