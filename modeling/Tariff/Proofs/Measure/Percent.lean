import Tariff.Proofs.Measure.Exact
import Tariff.Proofs.Measure.NormalForm
import Tariff.Proofs.Measure.Regular

/-!
# Percentages

A product with a percentage is told in the unit of the other factor by dividing it by a
hundred.  The conversion multiplies first, and where the numerator is short there is room for
the product of all digits that are kept: nothing is lost.

## Main definitions

* `Conversion.IsHundredth` — conversions that divide by a hundred
* `MeasureUnit.TellsPercent` — units in which a percentage is told by such a conversion
* `MeasureUnit.TellsRate` — units in which a share at a rate is told without rounding
* `MeasureUnit.IsAmountUnit` — money, as such or for watt hours

## Main statements

* `Conversion.IsHundredth.toRat_apply` — a hundredth is exact
* `MeasureUnit.tellsPercent_pricePer`, `MeasureUnit.tellsPercent_money` — a percentage of a
  price or of money
* `MeasureUnit.TellsRate.exists_places` — how a rate is told
* `MeasureUnit.IsAmountUnit.exists_conversion_percent` — percentages of amounts are told
-/

namespace Tariff

variable {p : Precision}

/-! ## Hundredths -/

namespace Conversion

/-- **A hundredth.**  The denominator is a hundred times the numerator, and this has at most twelve
digits, four of them behind the point. -/
def IsHundredth (c : Conversion) : Prop :=
  c.denominator.toRat = 100 * c.numerator.toRat ∧ c.numerator.toRat ≠ 0 ∧
    c.numerator.normalize.mantissa < 10 ^ 12 ∧ c.numerator.normalize.scale ≤ 4

/-- Whether a conversion is a hundredth can be decided. -/
instance : DecidablePred IsHundredth := fun _ => inferInstanceAs (Decidable (_ ∧ _ ∧ _ ∧ _))

variable {c : Conversion} {value result : Decimal}

/-- The numerator is a multiple of a power of ten that is not tiny. -/
theorem IsHundredth.exists_digits (h : c.IsHundredth) :
    ∃ m k : ℤ, c.numerator.toRat = m * 10 ^ k ∧ |m| < 10 ^ 12 ∧ -4 ≤ k := by
  obtain ⟨-, -, short, places⟩ := h
  refine ⟨c.numerator.normalize.signedMantissa, -(c.numerator.normalize.scale : ℤ), ?_, ?_, by omega⟩
  · rw [← Decimal.toRat_normalize, Decimal.toRat_eq, Decimal.cast_signedMantissa, signed_div, zpow_neg,
      div_eq_mul_inv]
  · rw [Decimal.signedMantissa]
    split <;> simpa using by exact_mod_cast short

/-- The numerator is not large. -/
theorem IsHundredth.abs_numerator_le (h : c.IsHundredth) : |c.numerator.toRat| ≤ 10 ^ 12 := by
  obtain ⟨-, -, short, -⟩ := h
  rw [← Decimal.toRat_normalize]
  exact c.numerator.normalize.abs_toRat_le.trans (by exact_mod_cast short.le)

/-- The denominator is not zero. -/
theorem IsHundredth.denominator_ne (h : c.IsHundredth) : c.denominator.toRat ≠ 0 := by
  rw [h.1]
  exact mul_ne_zero (by norm_num) h.2.1

/-- A hundredth changes something. -/
theorem IsHundredth.not_isIdentity (h : c.IsHundredth) : ¬ c.isIdentity = true := by
  rw [isIdentity, Decimal.sameValue_iff, h.1]
  intro same
  exact h.2.1 (by linarith)

/-- The numerator cancels in the quotient, since there is room for the product of all digits. -/
theorem IsHundredth.quotient {scaled : Decimal} (hundredth : c.IsHundredth) (few : p.digits ≤ 16)
    (digits : HasDigits p.digits value.toRat) (grid : OnGrid (-24) value.toRat)
    (h : value.multiply? c.numerator = some scaled) :
    scaled.toRat / c.denominator.toRat = value.toRat / 100 := by
  obtain ⟨m, k, numerator, short, place⟩ := hundredth.exists_digits
  obtain ⟨fraction, nonzero, -⟩ := hundredth
  obtain ⟨n, e, within, eq, many⟩ := digits.exists_onGrid grid
  have bound : |n| < 10 ^ 16 := many.trans_le (pow_le_pow_right₀ (by decide) few)
  have last : (maxPlaces : ℤ) = 28 := rfl
  have written : value.toRat * c.numerator.toRat = (n * m : ℤ) * 10 ^ (e + k) := by
    rw [eq, numerator, zpow_add₀ (by norm_num)]
    push_cast
    ring
  have product : scaled.toRat = value.toRat * c.numerator.toRat := by
    rw [Decimal.toRat_multiply? h]
    refine RoundingMode.halfEven.stored_of_digits written (by omega) ?_
    calc |n * m| = |n| * |m| := abs_mul n m
      _ ≤ 10 ^ 16 * 10 ^ 12 := mul_le_mul bound.le short.le (abs_nonneg _) (by positivity)
      _ < mantissaLimit := by decide
  rw [product, fraction, mul_comm (100 : ℚ), mul_comm value.toRat, mul_div_mul_left _ _ nonzero]

/-- **A hundredth is exact** for numbers of at most sixteen digits that are not tiny. -/
theorem IsHundredth.toRat_apply (hundredth : c.IsHundredth) (few : p.digits ≤ 16)
    (digits : HasDigits p.digits value.toRat) (grid : OnGrid (-24) value.toRat)
    (h : c.apply p value = .ok result) : result.toRat = value.toRat / 100 := by
  obtain ⟨-, scaled, hscaled, divided⟩ :=
    (apply_eq_ok h).resolve_left fun same => hundredth.not_isIdentity same.1
  obtain ⟨n, e, within, eq, many⟩ := digits.exists_onGrid grid
  have bound : |n| < 10 ^ 16 := many.trans_le (pow_le_pow_right₀ (by decide) few)
  have last : (maxPlaces : ℤ) = 28 := rfl
  have hundred : value.toRat / 100 = n * 10 ^ (e - 2) := by
    rw [eq, zpow_sub₀ (by norm_num), mul_div_assoc]
    norm_num
  rw [Precision.toRat_divide_by divided,
    hundredth.quotient few digits grid hscaled, hundred,
    RoundingMode.stored_of_digits _ rfl (by omega) (bound.trans (by decide)),
    p.mode.toDigits_of_digits many]

/-- **There is a hundredth** of a number that passes if it passes itself. -/
theorem IsHundredth.exists_apply (hundredth : c.IsHundredth) (few : p.digits ≤ 16)
    (before : Passes p.digits value.toRat) (after : Passes p.digits (value.toRat / 100)) :
    ∃ result, c.apply p value = .ok result ∧ result.toRat = value.toRat / 100 := by
  have room : |value.toRat * c.numerator.toRat| ≤ 10 ^ 28 := by
    rw [abs_mul]
    exact (mul_le_mul before.abs_le hundredth.abs_numerator_le (abs_nonneg _) (by positivity)).trans
      (by norm_num)
  obtain ⟨scaled, hscaled⟩ := Option.isSome_iff_exists.mp
    (Decimal.multiply?_isSome_iff.mpr (fits_of_le room))
  rw [← hundredth.quotient few before.hasDigits (before.onGrid.mono (by decide)) hscaled] at after ⊢
  obtain ⟨result, divided, eq⟩ := after.exists_divide few hundredth.denominator_ne
  exact ⟨result, apply_of_steps hundredth.not_isIdentity hundredth.denominator_ne hscaled divided, eq⟩

/-- **A conversion that moves the point** by no place or by two. -/
def Tells (c : Conversion) (places : ℤ) : Prop :=
  c = identity ∧ places = 0 ∨ c.IsHundredth ∧ places = 2

/-- It does so without rounding. -/
theorem Tells.toRat_apply {places : ℤ} (tells : c.Tells places) (few : p.digits ≤ 16)
    (digits : HasDigits p.digits value.toRat) (grid : OnGrid (places - 26) value.toRat)
    (h : c.apply p value = .ok result) : result.toRat * 10 ^ places = value.toRat := by
  rcases tells with ⟨rfl, rfl⟩ | ⟨hundredth, rfl⟩
  · rw [identity_apply] at h
    rw [Except.ok.inj h, zpow_zero, mul_one]
  · rw [hundredth.toRat_apply few digits grid h]
    norm_num

/-- There is room for it where the numbers pass before and after. -/
theorem Tells.exists_apply {places : ℤ} (tells : c.Tells places) (few : p.digits ≤ 16)
    (before : Passes p.digits value.toRat) (after : Passes p.digits (value.toRat * 10 ^ (-places))) :
    ∃ result, c.apply p value = .ok result ∧ result.toRat = value.toRat * 10 ^ (-places) := by
  rcases tells with ⟨rfl, rfl⟩ | ⟨hundredth, rfl⟩
  · exact ⟨value, identity_apply p value, by rw [neg_zero, zpow_zero, mul_one]⟩
  · have hundred : value.toRat * 10 ^ (-2 : ℤ) = value.toRat / 100 := by
      rw [zpow_neg, div_eq_mul_inv]
      norm_num
    rw [hundred] at after ⊢
    exact hundredth.exists_apply few before after

end Conversion

/-! ## Percentages of prices -/

namespace MeasureUnit

/-- **A unit tells percentages** when these are told in it by a hundredth. -/
def TellsPercent (unit : MeasureUnit) : Prop :=
  ∀ conversion, (unit.multiply percent).conversionTo unit = .ok conversion → conversion.IsHundredth

/-- A percentage is a hundredth of a plain number. -/
theorem isHundredth_of_percent {conversion : Conversion}
    (h : percent.conversionTo one = .ok conversion) : conversion.IsHundredth := by
  have percentage : percent.conversionTo one = .ok ⟨.ofDigits 1 2, .one⟩ := rfl
  obtain rfl := Except.ok.inj (percentage.symm.trans h)
  decide +kernel

/-- **A unit tells a rate** that is a plain number, or a percentage if it tells these. -/
def TellsRate (unit : MeasureUnit) (rate : Quantity) : Prop :=
  rate.unit = one ∨ rate.unit = percent ∧ unit.TellsPercent

/-- **Rates that are told** are told by moving the point, as fractions and as shares of a price. -/
theorem TellsRate.exists_places {unit : MeasureUnit} {rate : Quantity} (told : unit.TellsRate rate)
    (composed : unit.IsComposed) : ∃ places : ℤ, 0 ≤ places ∧ places ≤ 2 ∧
      rate.magnitude * 10 ^ places = rate.value.toRat ∧
        (∀ c, rate.unit.conversionTo one = .ok c → c.Tells places) ∧
          ∀ c, (unit.multiply rate.unit).conversionTo unit = .ok c → c.Tells places := by
  rcases told with plain | ⟨percentage, told⟩
  · refine ⟨0, le_rfl, by decide, ?_, ?_, ?_⟩
    · rw [Quantity.magnitude, plain, ratio_one]
      norm_num
    · rw [plain, Conversion.of_same (same_self _)]
      exact fun c h => .inl ⟨(Except.ok.inj h).symm, rfl⟩
    · rw [plain, multiply_one_eq, composed.conversionTo_divide_one]
      exact fun c h => .inl ⟨(Except.ok.inj h).symm, rfl⟩
  · refine ⟨2, by decide, le_rfl, ?_, ?_, ?_⟩
    · rw [Quantity.magnitude, percentage, ratio_percent, mul_assoc, ← zpow_add₀ (by norm_num)]
      norm_num
    · rw [percentage]
      exact fun c h => .inr ⟨isHundredth_of_percent h, rfl⟩
    · rw [percentage]
      exact fun c h => .inr ⟨told c h, rfl⟩

/-- **A percentage of a price** is told by a hundredth. -/
theorem tellsPercent_pricePer (code : String) (hundredth : Bool) {energy : MeasureUnit}
    (h : energy ∈ energyUnits) : (pricePer code hundredth energy).TellsPercent := by
  have fractions : ∀ factor ∈ energyFactors, ∀ hundredth : Bool,
      ((percentFactor hundredth).multiply? factor).all (fun numerator =>
        (factor.multiply? (moneyFactor hundredth)).all fun denominator =>
          decide (Conversion.ofFraction numerator denominator).IsHundredth) = true := by
    decide +kernel
  intro conversion converts
  rw [multiply_percent code hundredth h] at converts
  obtain ⟨factor, hfactor, -, numerator, denominator, hn, hd, rfl⟩ := conversionTo_percentOf h converts
  have fraction := fractions factor hfactor hundredth
  rwa [hn, hd, Option.all_some, Option.all_some, decide_eq_true_eq] at fraction

/-- Money at a percentage is a product of the two. -/
theorem money_multiply_percent (code : String) (hundredth : Bool) :
    (money code hundredth).multiply percent =
      let terms := [(money code hundredth, 1), (percent, 1)]
      derived terms (symbolOf terms) (nameOf terms) (dimensionOf terms) := by
  have different : (money code hundredth).same percent = false := by
    apply not_same_of_dimension
    rw [dimension_money]
    decide
  have factors := factors_money code hundredth
  have percentage : percent.factors = [(percent, 1)] := rfl
  generalize money code hundredth = currency at *
  simp [multiply, product, flatten, factors, percentage, merge, absorb, different, arrange, ofTerms]

/-- Money at a percentage in its root units. -/
theorem reduce?_money_percent (code : String) (hundredth : Bool) :
    ∃ roots, ((money code hundredth).multiply percent).reduce? =
      some ⟨percentFactor hundredth, .one, roots⟩ := by
  have percentage : percent.reduce? = some ⟨.ofDigits 1 2, .one, []⟩ := rfl
  have part : (moneyFactor hundredth).times? (.ofDigits 1 2) 1 = some (percentFactor hundredth) := by
    cases hundredth <;> decide +kernel
  have money := times?_once (moneyFactor hundredth) (by cases hundredth <;> simp [moneyFactor])
  have one := (times?_once .one List.mem_cons_self).1
  rw [money_multiply_percent]
  simp [reduce?, reduceTerms?, reduce?_money, percentage, Reduction.absorb?, Reduction.identity,
    money.1, one, part]

/-- **A percentage of money** is told by a hundredth. -/
theorem tellsPercent_money (code : String) (hundredth : Bool) : (money code hundredth).TellsPercent := by
  have fractions : ∀ hundredth : Bool,
      ((percentFactor hundredth).multiply? .one).all (fun numerator =>
        (Decimal.one.multiply? (moneyFactor hundredth)).all fun denominator =>
          decide (Conversion.ofFraction numerator denominator).IsHundredth) = true := by
    decide +kernel
  intro conversion converts
  obtain ⟨roots, reduced⟩ := reduce?_money_percent code hundredth
  rcases conversionTo_eq_ok converts with
    ⟨same, -⟩ | ⟨r, t, hr, ht, -, numerator, denominator, hn, hd, rfl⟩
  · rw [money_multiply_percent] at same
    cases hundredth <;> simp [MeasureUnit.same, MeasureUnit.money] at same
  · rw [reduced] at hr
    rw [reduce?_money] at ht
    obtain rfl := Option.some.inj hr
    obtain rfl := Option.some.inj ht
    have fraction := fractions hundredth
    rwa [hn, hd, Option.all_some, Option.all_some, decide_eq_true_eq] at fraction

/-! ## Units of amounts -/

/-- **Units of amounts** are a currency or its hundredth part, as such or for watt hours. -/
def IsAmountUnit (unit : MeasureUnit) : Prop :=
  ∃ code hundredth, unit = money code hundredth ∨
    ∃ energy ∈ wattHours, unit = pricePer code hundredth energy

namespace IsAmountUnit

variable {unit : MeasureUnit}

/-- They are in normal form. -/
theorem isComposed (h : unit.IsAmountUnit) : unit.IsComposed := by
  obtain ⟨code, hundredth, rfl | ⟨energy, henergy, rfl⟩⟩ := h
  · cases hundredth <;> exact .given rfl
  · have single : energy.isProduct = false := by
      simp only [wattHours, List.mem_cons, List.not_mem_nil, or_false] at henergy
      rcases henergy with rfl | rfl | rfl | rfl <;> rfl
    cases hundredth <;> exact .divide (.given rfl) (.given single)

/-- They tell percentages. -/
theorem tellsPercent (h : unit.IsAmountUnit) : unit.TellsPercent := by
  obtain ⟨code, hundredth, rfl | ⟨energy, henergy, rfl⟩⟩ := h
  · exact tellsPercent_money code hundredth
  · exact tellsPercent_pricePer code hundredth (mem_energyUnits henergy)

/-- **Percentages of amounts** are converted back. -/
theorem exists_conversion_percent (h : unit.IsAmountUnit) :
    ∃ conversion, (unit.multiply percent).conversionTo unit = .ok conversion := by
  have percentage : percent.IsRegular := IsStandard.isRegular (.given ⟨"%", rfl⟩)
  have fraction : percent.conversionTo one = .ok ⟨.ofDigits 1 2, .one⟩ := rfl
  have room : ∀ factor ∈ energyFactors, ∀ hundredth : Bool,
      ((percentFactor hundredth).multiply? factor).isSome = true ∧
        (factor.multiply? (moneyFactor hundredth)).isSome = true := by
    decide +kernel
  obtain ⟨code, hundredth, rfl | ⟨energy, henergy, rfl⟩⟩ := h
  · have regular : (money code hundredth).IsRegular := by
      refine .given ⟨?_, ?_⟩
      · cases hundredth <;> rfl
      · rw [dimension_money]
        decide
    obtain ⟨dimension, degree⟩ := measures_multiply regular percentage rfl fraction
    obtain ⟨roots, reduced⟩ := reduce?_money_percent code hundredth
    have sides := room .one List.mem_cons_self hundredth
    exact exists_conversionTo dimension degree reduced (reduce?_money code hundredth) sides.1 sides.2
  · have henergy := mem_energyUnits henergy
    obtain ⟨dimension, degree⟩ :=
      measures_multiply (isRegular_pricePer code hundredth henergy) percentage rfl fraction
    obtain ⟨factor, hfactor, energyReduced⟩ := reduce?_energy henergy
    obtain ⟨roots, reduced⟩ := reduce?_percentOf code hundredth hfactor energyReduced
    rw [← multiply_percent code hundredth henergy] at reduced
    have sides := room factor hfactor hundredth
    exact exists_conversionTo dimension degree reduced
      (reduce?_pricePer code hundredth henergy hfactor energyReduced) sides.1 sides.2

/-- A rate of an amount is told by moving the point, as a fraction and as a share of the amount. -/
theorem exists_tells {rate : Quantity} (h : unit.IsAmountUnit)
    (plain : rate.unit = percent ∨ rate.unit = one) :
    ∃ places : ℤ, rate.value.toRat * 10 ^ (-places) = rate.magnitude ∧
      (∃ c, rate.unit.conversionTo one = .ok c ∧ c.Tells places) ∧
        ∃ c, (unit.multiply rate.unit).conversionTo unit = .ok c ∧ c.Tells places := by
  have told : unit.TellsRate rate := plain.symm.imp_right fun percentage => ⟨percentage, h.tellsPercent⟩
  obtain ⟨places, -, -, value, fraction, share⟩ := told.exists_places h.isComposed
  have magnitude : rate.value.toRat * 10 ^ (-places) = rate.magnitude := by
    rw [← value, mul_assoc, ← zpow_add₀ (by norm_num), add_neg_cancel, zpow_zero, mul_one]
  have conversions : (∃ c, rate.unit.conversionTo one = .ok c) ∧
      ∃ c, (unit.multiply rate.unit).conversionTo unit = .ok c := by
    rcases plain with percentage | number
    · rw [percentage]
      exact ⟨⟨_, rfl⟩, h.exists_conversion_percent⟩
    · rw [number, multiply_one_eq]
      exact ⟨⟨_, Conversion.of_same (same_self _)⟩, ⟨_, h.isComposed.conversionTo_divide_one⟩⟩
  obtain ⟨⟨c, hc⟩, ⟨d, hd⟩⟩ := conversions
  exact ⟨places, magnitude, ⟨c, hc, fraction c hc⟩, ⟨d, hd, share d hd⟩⟩

end IsAmountUnit

end MeasureUnit

end Tariff
