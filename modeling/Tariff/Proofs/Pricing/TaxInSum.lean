import Tariff.Proofs.Measure.NormalForm
import Tariff.Proofs.Pricing.TaxedPrice

/-!
# Prices given with tax

The amount in a sum is a rounded quotient.  The tax is what is left of the sum, and
it is not rounded: amount and tax make up the sum, digit for digit.

## Main statements

* `TaxedPrice.amount_of_sum`, `TaxedPrice.tax_of_sum` — the steps to both sides
* `TaxedPrice.one_le_divisor`, `TaxedPrice.divisor_le_two` — a rate of at most one
  divides by one to two
* `TaxedPrice.exists_quotient` — the amount in a sum is one rounded quotient
* `TaxedPrice.amount_add_tax` — amount and tax make up the sum

## Design notes

A divisor between one and two leaves at least half of the sum, which is what
`RoundingMode.exists_grid_sub_quotient` asks for.  That the divisor is rounded
itself does no harm, since one and two are digits.

The quotient is told in the unit of the sum over plain numbers and converted back.
For a unit in normal form the conversion is the identity, and the quotient is
rounded only once.
-/

namespace Tariff.TaxedPrice

variable {t : TaxedPrice} {s rate fraction amount tax : Quantity} {p : Precision}

/-! ## The steps -/

theorem amountInSum_eq_ok : amountInSum s fraction p = .ok amount ↔
    ∃ divisor, (Quantity.plain .one).add fraction p = .ok divisor ∧
      ∃ quotient, s.divide divisor p = .ok quotient ∧ quotient.convert s.unit p = .ok amount := by
  simp only [amountInSum, Outcome.bind_eq_ok]

theorem rate_eq_ok : t.rate p = .ok fraction ↔ t.taxRate.convert .one p = .ok fraction := by
  rw [TaxedPrice.rate, Outcome.ofMeasured_eq_ok]

/-- The amount in a sum is the quotient by the rate as a fraction. -/
theorem amount_of_sum : TaxedPrice.amount ⟨rate, .sum s⟩ p = .ok amount ↔
    ∃ fraction, rate.convert .one p = .ok fraction ∧ amountInSum s fraction p = .ok amount := by
  simp only [TaxedPrice.amount, Outcome.bind_eq_ok, Outcome.ofMeasured_eq_ok, rate_eq_ok]

/-- The tax in a sum is the difference to the amount. -/
theorem tax_of_sum : TaxedPrice.tax ⟨rate, .sum s⟩ p = .ok tax ↔
    ∃ amount, TaxedPrice.amount ⟨rate, .sum s⟩ p = .ok amount ∧ s.subtract amount p = .ok tax := by
  simp only [TaxedPrice.tax, Outcome.bind_eq_ok, Outcome.ofMeasured_eq_ok]

/-! ## The divisor -/

/-- A rate that is a percentage or a plain number is a fraction that is not
negative. -/
theorem fraction_nonneg (check : checkRate rate = .ok ⟨⟩)
    (plain : rate.unit = .percent ∨ rate.unit = .one) (h : rate.convert .one p = .ok fraction) :
    fraction.unit = .one ∧ 0 ≤ fraction.value.toRat := by
  obtain ⟨conversion, hconversion, value, hvalue, rfl⟩ := Quantity.convert_eq_ok.mp h
  have positive : rate.unit.isPositive = true := by rcases plain with eq | eq <;> rw [eq] <;> rfl
  obtain ⟨numerator, denominator⟩ := MeasureUnit.conversionTo_nonneg positive rfl hconversion
  exact ⟨rfl, Conversion.apply_nonneg numerator denominator (rate_nonneg check) hvalue⟩

/-- **A rate divides** by one more than its fraction. -/
theorem toRat_divisor {x divisor : Decimal} (h : p.add .one x = .ok divisor) :
    divisor.toRat = p.keep (1 + x.toRat) := by
  rw [Precision.toRat_add h, Decimal.toRat_one]

/-- No rate divides by less than one. -/
theorem one_le_divisor (p : Precision) {x : ℚ} (nonneg : 0 ≤ x) : 1 ≤ p.keep (1 + x) := by
  have one : p.keep 1 = 1 := by exact_mod_cast p.keep_digit (n := 1) (by decide)
  rw [← one]
  exact p.keep_mono (by linarith)

/-- A rate of at most one divides by at most two. -/
theorem divisor_le_two (p : Precision) {x : ℚ} (atMostOne : x ≤ 1) : p.keep (1 + x) ≤ 2 := by
  have two : p.keep 2 = 2 := by exact_mod_cast p.keep_digit (n := 2) (by decide)
  rw [← two]
  exact p.keep_mono (by linarith)

/-! ## Amount and tax -/

/-- **The amount in a sum** is one rounded quotient, in the unit of the sum. -/
theorem exists_quotient (check : checkRate rate = .ok ⟨⟩) (composed : s.unit.IsComposed)
    (plain : rate.unit = .percent ∨ rate.unit = .one)
    (hfraction : rate.convert .one p = .ok fraction)
    (h : TaxedPrice.amount ⟨rate, .sum s⟩ p = .ok amount) :
    amount.unit = s.unit ∧ 0 ≤ fraction.value.toRat ∧ ∃ divisor,
      p.add .one fraction.value = .ok divisor ∧ p.divide s.value divisor = .ok amount.value := by
  obtain ⟨same, hsame, h⟩ := amount_of_sum.mp h
  obtain rfl := Except.ok.inj (hfraction.symm.trans hsame)
  obtain ⟨divisor, hdivisor, quotient, hquotient, converted⟩ := amountInSum_eq_ok.mp h
  obtain ⟨unit, nonneg⟩ := fraction_nonneg check plain hfraction
  obtain ⟨hunit, sum⟩ := Quantity.add_of_same (a := .plain .one) unit hdivisor
  replace hunit : divisor.unit = .one := hunit
  obtain ⟨value, divided, rfl⟩ := Quantity.divide_eq_ok.mp hquotient
  obtain ⟨conversion, hconversion, result, hresult, rfl⟩ := Quantity.convert_eq_ok.mp converted
  rw [hunit, composed.conversionTo_divide_one] at hconversion
  rw [← Except.ok.inj hconversion, Conversion.identity_apply] at hresult
  exact ⟨rfl, nonneg, divisor.value, sum, divided.trans hresult⟩

/-- At a rate of at most one the divisor lies between one and two. -/
theorem exists_divisor (check : checkRate rate = .ok ⟨⟩) (composed : s.unit.IsComposed)
    (plain : rate.unit = .percent ∨ rate.unit = .one)
    (hfraction : rate.convert .one p = .ok fraction) (atMostOne : fraction.value.toRat ≤ 1)
    (h : TaxedPrice.amount ⟨rate, .sum s⟩ p = .ok amount) :
    amount.unit = s.unit ∧ ∃ divisor, 1 ≤ divisor.toRat ∧ divisor.toRat ≤ 2 ∧
      p.divide s.value divisor = .ok amount.value := by
  obtain ⟨unit, nonneg, divisor, sum, quotient⟩ := exists_quotient check composed plain hfraction h
  refine ⟨unit, divisor, ?_, ?_, quotient⟩ <;> rw [toRat_divisor sum]
  · exact one_le_divisor p nonneg
  · exact divisor_le_two p atMostOne

/-- **Amount and tax make up the sum.**  A price given with tax has a tax that is
exactly what its amount leaves of the sum, and added up they are the sum again, in
every mode of rounding. -/
theorem amount_add_tax (given : ofSum s rate = .ok t) (composed : s.unit.IsComposed)
    (plain : rate.unit = .percent ∨ rate.unit = .one) (hfraction : t.rate p = .ok fraction)
    (atMostOne : fraction.value.toRat ≤ 1) (digits : HasDigits p.digits s.value.toRat)
    (hamount : t.amount p = .ok amount) (htax : t.tax p = .ok tax) :
    amount.unit = s.unit ∧ tax.unit = s.unit ∧
      tax.value.toRat = s.value.toRat - amount.value.toRat ∧
        t.sum p = .ok s ∧ ∃ whole, amount.add tax p = .ok whole ∧ whole.same s = true := by
  obtain ⟨check, rfl⟩ := of_eq_ok.mp given
  obtain ⟨unit, divisor, one, two, quotient⟩ :=
    exists_divisor check composed plain (rate_eq_ok.mp hfraction) atMostOne hamount
  obtain ⟨same, hsame, difference⟩ := tax_of_sum.mp htax
  obtain rfl := Except.ok.inj (hamount.symm.trans hsame)
  obtain ⟨taxUnit, kept⟩ := Quantity.toRat_subtract unit difference
  have rest := kept.trans (Precision.keep_sub_quotient digits one two quotient)
  refine ⟨unit, taxUnit, rest, rfl, Quantity.exists_add unit taxUnit ?_ digits⟩
  rw [rest, add_sub_cancel]

/-- Eight cents for a kilowatt hour with a tax of 25.5 percent in them. -/
def eightCents : Quantity :=
  ⟨.ofDigits 800 2, .pricePer "EUR" true .kilowattHour⟩

/-- Of eight cents 6.374502 are the amount, and the rest is the tax. -/
theorem amount_add_tax_eightCents : ∃ price amount tax,
    ofSum eightCents ⟨.ofDigits 255 1, .percent⟩ = .ok price ∧
      price.amount .seven = .ok amount ∧ price.tax .seven = .ok tax ∧
        tax.value.toRat = eightCents.value.toRat - amount.value.toRat ∧
          ∃ whole, amount.add tax .seven = .ok whole ∧ whole.same eightCents = true := by
  have composed : (MeasureUnit.pricePer "EUR" true .kilowattHour).IsComposed :=
    .divide (.given rfl) (.given rfl)
  have given : ofSum eightCents ⟨.ofDigits 255 1, .percent⟩ =
      .ok ⟨⟨.ofDigits 255 1, .percent⟩, .sum eightCents⟩ := rfl
  have fraction : TaxedPrice.rate ⟨⟨.ofDigits 255 1, .percent⟩, .sum eightCents⟩ .seven =
      .ok ⟨.ofDigits 2550000 7, .one⟩ := rfl
  have atMostOne : (Decimal.ofDigits 2550000 7).toRat ≤ 1 := by decide
  have digits : HasDigits 7 eightCents.value.toRat := by
    refine ⟨8, 0, ?_, by decide⟩
    rw [eightCents, Decimal.toRat_ofDigits (by decide) (by decide)]
    norm_num
  have amount : TaxedPrice.amount ⟨⟨.ofDigits 255 1, .percent⟩, .sum eightCents⟩ .seven =
      .ok ⟨.ofDigits 6374502 6, eightCents.unit⟩ := rfl
  have tax : TaxedPrice.tax ⟨⟨.ofDigits 255 1, .percent⟩, .sum eightCents⟩ .seven =
      .ok ⟨.ofDigits 1625498 6, eightCents.unit⟩ := rfl
  obtain ⟨-, -, rest, -, whole⟩ :=
    amount_add_tax given composed (.inl rfl) fraction atMostOne digits amount tax
  exact ⟨_, _, _, given, amount, tax, rest, whole⟩

end Tariff.TaxedPrice
