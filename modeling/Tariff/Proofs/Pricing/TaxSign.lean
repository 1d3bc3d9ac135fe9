import Tariff.Proofs.Measure.Nearest
import Tariff.Proofs.Measure.Sign
import Tariff.Proofs.Pricing.TaxInSum

/-!
# The sign of a tax

A tax on a price that is not negative should not be negative either, and the price with
tax no less than the price without it.  The side that is given keeps all its digits while
the other one is rounded, and where next to no tax stands between them the rounding can be
larger than the tax.

## Main definitions

* `TaxedPrice.TaxShows` — prices whose tax is not lost in rounding

## Main statements

* `Precision.quotient_le`, `Precision.le_sum` — when a rounded part is no more than the whole, and
  a rounded whole no less than the part
* `TaxedPrice.tax_nonneg` — taxes that are not negative
* `TaxedPrice.tax_lost` — a tax that is

## Design notes

What is kept of two numbers may be the same, but never stands in the other order.  So a number
of few digits between the two sides is all that is needed.  The given side is such a number
unless it has more digits than are kept; and if it has more, there is one within the next step of
its last digit, which is less than the tax unless the rate is next to nothing.
-/

namespace Tariff

/-! ## Parts and wholes -/

namespace Precision

variable {p : Precision} {a b c : Decimal} {x y : ℚ}

/-- A decimal has no more digits than are kept, or the last of these is one that can be stored. -/
theorem hasDigits_or_within (p : Precision) (a : Decimal) :
    HasDigits p.digits a.toRat ∨
      -(maxPlaces : ℤ) ≤ RoundingMode.size a.toRat + 1 - p.digits := by
  rcases le_or_gt (-(maxPlaces : ℤ)) (RoundingMode.size a.toRat + 1 - p.digits) with within | tiny
  · exact .inr within
  · refine .inl (a.onGrid_toRat.hasDigits ((RoundingMode.lt_zpow_size _).trans_le ?_))
    exact zpow_le_zpow_right₀ (by norm_num) (by omega)

/-- What is kept of a decimal of few digits is that decimal. -/
theorem keep_toRat (digits : HasDigits p.digits a.toRat) : p.keep a.toRat = a.toRat := by
  rw [keep, a.stored_toRat, p.mode.toDigits_of_hasDigits digits]

/-- A divisor that is more than one, of the digits that are kept, is so by a step at least. -/
theorem step_le_of_one_lt (digits : HasDigits p.digits x) (one : 1 < x) :
    1 + (10 : ℚ) ^ (1 - p.digits : ℤ) ≤ x := by
  have grid := digits.onGrid_of_le (k := 0) (by simpa using one.le)
  rw [zero_add] at grid
  linarith [p.onGrid_one.step_le_sub grid one]

/-- A multiple of the last kept digit stands between a number and its quotient by a divisor that is
more than one by a step. -/
theorem div_le_steps {n k : ℤ} (reached : (10 : ℚ) ^ k ≤ n * 10 ^ (k + 1 - p.digits))
    (upper : x < (n + 1) * 10 ^ (k + 1 - p.digits)) (step : 1 + (10 : ℚ) ^ (1 - p.digits : ℤ) ≤ y) :
    x / y ≤ n * 10 ^ (k + 1 - p.digits) := by
  have split : (10 : ℚ) ^ (k + 1 - p.digits) = 10 ^ k * 10 ^ (1 - p.digits : ℤ) := by
    rw [← zpow_add₀ (by norm_num)]
    congr 1
    ring
  have unit : (0 : ℚ) < 10 ^ (1 - p.digits : ℤ) := by positivity
  have multiple : (0 : ℚ) ≤ n * 10 ^ (k + 1 - p.digits) := le_trans (by positivity) reached
  rw [div_le_iff₀ (by linarith)]
  calc x ≤ n * 10 ^ (k + 1 - p.digits) + 10 ^ k * 10 ^ (1 - p.digits : ℤ) := by
        rw [← split]
        linarith
    _ ≤ n * 10 ^ (k + 1 - p.digits) * (1 + 10 ^ (1 - p.digits : ℤ)) := by
        rw [mul_one_add]
        linarith [mul_le_mul_of_nonneg_right reached unit.le]
    _ ≤ n * 10 ^ (k + 1 - p.digits) * y := mul_le_mul_of_nonneg_left step multiple

/-- A quotient is rounded to no more than any number that it does not exceed. -/
theorem toRat_divide_le (le : a.toRat / b.toRat ≤ y) (h : p.divide a b = .ok c) :
    c.toRat ≤ p.mode.toDigits p.digits ((Decimal.quotientMode a b).stored y maxPlaces) := by
  rw [toRat_divide_by h]
  exact p.mode.toDigits_mono p.digits_pos
    (RoundingMode.stored_mono (Decimal.isNearest_quotientMode a b) maxPlaces le)

/-- **A rounded part is no more than the whole**, if rounding does not raise the whole or if the
divisor is more than one by a step. -/
theorem quotient_le (nonneg : 0 ≤ a.toRat) (one : 1 ≤ b.toRat)
    (shows : p.keep a.toRat ≤ a.toRat ∨ 1 + (10 : ℚ) ^ (1 - p.digits : ℤ) ≤ b.toRat)
    (h : p.divide a b = .ok c) : c.toRat ≤ a.toRat := by
  -- where the whole is not raised, no part of it is
  have whole : p.keep a.toRat ≤ a.toRat → c.toRat ≤ a.toRat := by
    intro held
    refine (toRat_divide_le (div_le_self nonneg one) h).trans ?_
    rw [keep, a.stored_toRat] at held
    rwa [a.stored_toRat]
  rcases nonneg.eq_or_lt with zero | pos
  · exact whole (by rw [← zero, keep_zero])
  rcases shows with held | step
  · exact whole held
  rcases p.hasDigits_or_within a with digits | within
  · exact whole (keep_toRat digits).le
  -- otherwise a multiple of the last kept digit stands between the part and the whole
  obtain ⟨n, reached, lower, upper, next⟩ := exists_steps p.digits_pos pos
  have size : (0 : ℚ) < 10 ^ RoundingMode.size a.toRat := by positivity
  have few : |(n * 10 ^ (RoundingMode.size a.toRat + 1 - p.digits) : ℚ)| <
      10 ^ (RoundingMode.size a.toRat + 1 - p.digits + p.digits) := by
    rw [abs_of_pos (size.trans_le reached), sub_add_cancel]
    linarith
  calc c.toRat ≤ p.mode.toDigits p.digits ((Decimal.quotientMode a b).stored
        (n * 10 ^ (RoundingMode.size a.toRat + 1 - p.digits)) maxPlaces) :=
          toRat_divide_le (div_le_steps reached upper step) h
    _ = n * 10 ^ (RoundingMode.size a.toRat + 1 - p.digits) := p.toDigits_stored _ ⟨n, rfl⟩ within few
    _ ≤ a.toRat := lower

/-- A quotient by one is what is kept of the dividend. -/
theorem toRat_divide_one (one : b.toRat = 1) (h : p.divide a b = .ok c) :
    c.toRat = p.keep a.toRat := by
  rw [toRat_divide_by h, one, div_one, keep, a.stored_toRat, a.stored_toRat]

/-- **A rounded whole is no less than the part**, if rounding does not lower the part or if the
rest is a step of it. -/
theorem le_sum (nonneg : 0 ≤ a.toRat) (rest : 0 ≤ b.toRat)
    (shows : a.toRat ≤ p.keep a.toRat ∨
      (10 : ℚ) ^ (RoundingMode.size a.toRat + 1 - p.digits) ≤ b.toRat)
    (h : p.add a b = .ok c) : a.toRat ≤ c.toRat := by
  rw [toRat_add h]
  have part : a.toRat ≤ p.keep a.toRat → a.toRat ≤ p.keep (a.toRat + b.toRat) :=
    fun held => held.trans (p.keep_mono (by linarith))
  rcases nonneg.eq_or_lt with zero | pos
  · exact part (by rw [← zero, keep_zero])
  rcases shows with held | step
  · exact part held
  rcases p.hasDigits_or_within a with digits | within
  · exact part (keep_toRat digits).ge
  obtain ⟨n, reached, lower, upper, next⟩ := exists_steps p.digits_pos pos
  have top : RoundingMode.size a.toRat + 1 - p.digits + p.digits = RoundingMode.size a.toRat + 1 := by
    omega
  have unit : (0 : ℚ) < 10 ^ (RoundingMode.size a.toRat + 1 - p.digits) := by positivity
  have size : (0 : ℚ) < 10 ^ RoundingMode.size a.toRat := by positivity
  have held := p.keep_of_steps
    (x := (n + 1) * 10 ^ (RoundingMode.size a.toRat + 1 - p.digits)) ⟨n + 1, by push_cast; rfl⟩
    within (by linarith) (by rw [top]; exact next)
  calc a.toRat ≤ (n + 1) * 10 ^ (RoundingMode.size a.toRat + 1 - p.digits) := upper.le
    _ = p.keep ((n + 1) * 10 ^ (RoundingMode.size a.toRat + 1 - p.digits)) := held.symm
    _ ≤ p.keep (a.toRat + b.toRat) := p.keep_mono (by linarith)

end Precision

/-! ## Prices -/

namespace MeasureUnit

theorem turns_of_rate {unit : MeasureUnit} (plain : unit = .percent ∨ unit = .one) :
    unit.turns = 0 := by
  rcases plain with rfl | rfl
  · have upright : ¬ (Decimal.ofDigits 1 2).toRat < 0 := by decide
    rw [percent, turns, if_neg upright, one, turns, Int.add_zero]
  · rw [one, turns]

end MeasureUnit

namespace TaxedPrice

variable {t : TaxedPrice} {a s rate price amount tax sum : Quantity} {basis : Basis} {p : Precision}

/-- **The tax on an amount** is not negative if the amount is not, in whatever unit it is told. -/
theorem taxOnAmount_nonneg (check : checkRate rate = .ok ⟨⟩)
    (plain : rate.unit = .percent ∨ rate.unit = .one) (nonneg : 0 ≤ a.value.toRat)
    (h : taxOnAmount a rate p = .ok tax) : 0 ≤ tax.value.toRat := by
  obtain ⟨conversion, converts, value, told, hvalue, htold, rfl⟩ := taxOnAmount_steps.mp h
  have sign := MeasureUnit.conversionTo_sign
    (MeasureUnit.turns_multiply (MeasureUnit.turns_of_rate plain)) converts
  refine Conversion.apply_sign sign ?_ htold
  rw [Precision.toRat_multiply hvalue]
  exact p.keep_nonneg (mul_nonneg nonneg (rate_nonneg check))

theorem tax_of_amount : TaxedPrice.tax ⟨rate, .amount a⟩ p = .ok tax ↔
    taxOnAmount a rate p = .ok tax := by
  rw [TaxedPrice.tax, Outcome.ofMeasured_eq_ok]

/-- **A tax that shows.**  Of a price without tax, rounding to the digits that are kept does not
lower the price, or the tax is a step of the last of these digits at least.  Of a price with tax,
rounding does not raise the price, or one more than the rate is not rounded to one. -/
def TaxShows (t : TaxedPrice) (p : Precision) : Prop :=
  match t.basis with
  | .amount price => price.value.toRat ≤ p.keep price.value.toRat ∨ ∃ tax, t.tax p = .ok tax ∧
      (10 : ℚ) ^ (RoundingMode.size price.value.toRat + 1 - p.digits) ≤ tax.value.toRat
  | .sum price => p.keep price.value.toRat ≤ price.value.toRat ∨ ∃ fraction, t.rate p = .ok fraction ∧
      p.keep (1 + fraction.value.toRat) ≠ 1

/-- The tax on a price of no more digits than are kept shows at any rate. -/
theorem taxShows_of_hasDigits (digits : HasDigits p.digits t.basis.price.value.toRat) :
    t.TaxShows p := by
  obtain ⟨rate, price | price⟩ := t
  · exact .inl (Precision.keep_toRat digits).ge
  · exact .inl (Precision.keep_toRat digits).le

/-- **Taxes that are not negative.**  A tax on an amount that is not negative is not negative, in
every mode of rounding.  For a price on either side whose tax shows, the tax is not negative and
the amount is no more than the sum; of a price with tax this holds of no other. -/
theorem tax_nonneg (given : of basis rate = .ok t) (composed : basis.price.unit.IsComposed)
    (plain : rate.unit = .percent ∨ rate.unit = .one) (nonneg : 0 ≤ basis.price.value.toRat)
    (hamount : t.amount p = .ok amount) (htax : t.tax p = .ok tax) (hsum : t.sum p = .ok sum) :
    amount.unit = t.unit ∧ tax.unit = t.unit ∧ sum.unit = t.unit ∧
      ((∃ price, basis = .amount price) → 0 ≤ tax.value.toRat) ∧
        (t.TaxShows p → 0 ≤ tax.value.toRat ∧ amount.value.toRat ≤ sum.value.toRat) ∧
          ((∃ price, basis = .sum price) → amount.value.toRat ≤ sum.value.toRat → t.TaxShows p) := by
  obtain ⟨check, rfl⟩ := of_eq_ok.mp given
  cases basis with
  | amount a =>
      obtain rfl := Except.ok.inj hamount
      have onAmount := tax_of_amount.mp htax
      have unit := unit_taxOnAmount onAmount
      have sign : 0 ≤ tax.value.toRat := taxOnAmount_nonneg check plain nonneg onAmount
      refine ⟨rfl, unit, unit_sum hsum, fun _ => sign, fun shows => ⟨sign, ?_⟩, nofun⟩
      obtain ⟨same, hsame, added⟩ := sum_of_amount.mp hsum
      obtain rfl := Except.ok.inj (onAmount.symm.trans hsame)
      have total := (Quantity.add_of_same unit added).2
      refine Precision.le_sum nonneg sign (shows.imp_right ?_) total
      rintro ⟨shown, hshown, step⟩
      rwa [Except.ok.inj (htax.symm.trans hshown)]
  | sum s =>
      obtain rfl := sum_of_sum.mp hsum
      obtain ⟨fraction, hfraction, -⟩ := amount_of_sum.mp hamount
      obtain ⟨unit, rateNonneg, divisor, hsummed, quotient⟩ :=
        exists_quotient check composed plain hfraction hamount
      have hdivisor := toRat_divisor hsummed
      obtain ⟨same, hsame, difference⟩ := tax_of_sum.mp htax
      obtain rfl := Except.ok.inj (hamount.symm.trans hsame)
      obtain ⟨taxUnit, rest⟩ := Quantity.toRat_subtract unit difference
      have one : 1 ≤ divisor.toRat := hdivisor ▸ one_le_divisor p rateNonneg
      have ordered : TaxShows ⟨rate, .sum s⟩ p → amount.value.toRat ≤ s.value.toRat := by
        intro shows
        refine Precision.quotient_le nonneg one (shows.imp_right ?_) quotient
        rintro ⟨shown, hshown, ne⟩
        obtain rfl := Except.ok.inj (hfraction.symm.trans (rate_eq_ok.mp hshown))
        rw [← hdivisor] at ne
        refine Precision.step_le_of_one_lt ?_ (one.lt_of_ne' ne)
        rw [hdivisor]
        exact p.mode.hasDigits_toDigits p.digits_pos _
      refine ⟨unit, taxUnit, rfl, nofun, fun shows => ⟨?_, ordered shows⟩, fun _ le => ?_⟩
      · rw [rest]
        exact p.keep_nonneg (sub_nonneg.mpr (ordered shows))
      · rcases eq_or_ne divisor.toRat 1 with none | some
        · rw [Precision.toRat_divide_one none quotient] at le
          exact .inl le
        · exact .inr ⟨fraction, rate_eq_ok.mpr hfraction, hdivisor ▸ some⟩

/-- Eight digits of euros. -/
def eightDigits : Quantity :=
  ⟨.ofDigits 12345678 6, .money "EUR" false⟩

/-- A tax of 24 percent in them shows where seven digits are kept. -/
theorem tax_nonneg_eightDigits : ∃ price amount tax sum,
    ofSum eightDigits ⟨.ofDigits 24 0, .percent⟩ = .ok price ∧ price.TaxShows .seven ∧
      price.amount .seven = .ok amount ∧ price.tax .seven = .ok tax ∧ price.sum .seven = .ok sum ∧
        0 ≤ tax.value.toRat ∧ amount.value.toRat ≤ sum.value.toRat := by
  have given : ofSum eightDigits ⟨.ofDigits 24 0, .percent⟩ =
      .ok ⟨⟨.ofDigits 24 0, .percent⟩, .sum eightDigits⟩ := rfl
  have rate : TaxedPrice.rate ⟨⟨.ofDigits 24 0, .percent⟩, .sum eightDigits⟩ .seven =
      .ok ⟨.ofDigits 2400000 7, .one⟩ := rfl
  have divisor : Precision.seven.keep (1 + (Decimal.ofDigits 2400000 7).toRat) ≠ 1 := by
    have fraction : 1 + (Decimal.ofDigits 2400000 7).toRat = (124 : ℤ) * 10 ^ (-2 : ℤ) := by
      rw [Decimal.toRat_ofDigits (by decide) (by decide)]
      norm_num
    rw [fraction, Precision.keep_of_grid _ ⟨124, rfl⟩ (by decide) (by norm_num [Precision.seven])]
    norm_num
  have shows : TaxShows ⟨⟨.ofDigits 24 0, .percent⟩, .sum eightDigits⟩ .seven :=
    .inr ⟨_, rate, divisor⟩
  have amount : TaxedPrice.amount ⟨⟨.ofDigits 24 0, .percent⟩, .sum eightDigits⟩ .seven =
      .ok ⟨.ofDigits 9956192 6, eightDigits.unit⟩ := rfl
  have tax : TaxedPrice.tax ⟨⟨.ofDigits 24 0, .percent⟩, .sum eightDigits⟩ .seven =
      .ok ⟨.ofDigits 2389486 6, eightDigits.unit⟩ := rfl
  have nonneg : 0 ≤ eightDigits.value.toRat := by decide
  have result := tax_nonneg given (.given rfl) (.inl rfl) nonneg amount tax rfl
  exact ⟨_, _, _, _, given, shows, amount, tax, rfl, result.2.2.2.2.1 shows⟩

/-- **A tax that is lost.**  At a rate of zero the same sum is rounded up to an amount that is more
than the sum, and a negative tax is left. -/
theorem tax_lost : ∃ price amount tax,
    ofSum eightDigits ⟨.zero, .percent⟩ = .ok price ∧
      price.amount .seven = .ok amount ∧ price.tax .seven = .ok tax ∧
        price.sum .seven = .ok eightDigits ∧
          tax.value.toRat < 0 ∧ eightDigits.value.toRat < amount.value.toRat := by
  have given : ofSum eightDigits ⟨.zero, .percent⟩ =
      .ok ⟨⟨.zero, .percent⟩, .sum eightDigits⟩ := rfl
  have amount : TaxedPrice.amount ⟨⟨.zero, .percent⟩, .sum eightDigits⟩ .seven =
      .ok ⟨.ofDigits 1234568 5, eightDigits.unit⟩ := rfl
  have difference : Precision.seven.subtract (.ofDigits 12345678 6) (.ofDigits 1234568 5) =
      .ok ⟨true, 2000000, 12, by decide, by decide⟩ := by decide +kernel
  have tax : TaxedPrice.tax ⟨⟨.zero, .percent⟩, .sum eightDigits⟩ .seven =
      .ok ⟨⟨true, 2000000, 12, by decide, by decide⟩, eightDigits.unit⟩ :=
    tax_of_sum.mpr ⟨_, amount, Quantity.subtract_eq_ok.mpr ⟨rfl, _, rfl, _, difference, rfl⟩⟩
  have negative : (⟨true, 2000000, 12, by decide, by decide⟩ : Decimal).toRat < 0 := by decide
  have above : eightDigits.value.toRat < (Decimal.ofDigits 1234568 5).toRat := by decide
  exact ⟨_, _, _, given, amount, tax, rfl, negative, above⟩

end TaxedPrice

end Tariff
