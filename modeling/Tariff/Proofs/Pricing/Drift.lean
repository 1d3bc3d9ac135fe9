import Tariff.Proofs.Measure.Percent
import Tariff.Proofs.Measure.RoundTrip
import Tariff.Proofs.Pricing.TaxInSum

/-!
# Going back and forth between both sides

A price without tax is given with it and without it again.  Amount and sum are rounded each
time, so that the amount that comes back need not be the one that was given.  It should not
change any more after that.

## Main definitions

* `TaxedPrice.cycle`, `TaxedPrice.cycles` — going back and forth

## Main statements

* `TaxedPrice.exists_cycle` — a cycle on numbers
* `TaxedPrice.cycles_comeBack` — an amount that comes back does so any number of times
* `TaxedPrice.cycles_settle` — after one cycle amounts stay at steady rates
* `TaxedPrice.cycles_drift` — an amount that moves on

## Design notes

The sum adds a tax at the full rate, but the amount is a quotient by one and the rate, rounded to
the digits that are kept.  Where the rate has more digits than that the quotient is off in the same
direction each time, and the amount moves on from one cycle to the next.
-/

namespace Tariff.TaxedPrice

/-! ## Cycles -/

/-- **A cycle.**  The price given by its sum, and by its amount again. -/
def cycle (t : TaxedPrice) (p : Precision) : Priced TaxedPrice := do
  let whole ← t.bySum p
  whole.byAmount p

/-- So many cycles. -/
def cycles (p : Precision) : ℕ → TaxedPrice → Priced TaxedPrice
  | 0, t => .ok t
  | n + 1, t => do
    let next ← t.cycle p
    cycles p n next

variable {t u v : TaxedPrice} {a rate fraction tax : Quantity} {p : Precision} {n : ℕ}

/-- A cycle takes the sum of an amount and the amount in that sum. -/
theorem cycle_eq_ok : cycle ⟨rate, .amount a⟩ p = .ok u ↔
    checkRate rate = .ok ⟨⟩ ∧ ∃ s b, sum ⟨rate, .amount a⟩ p = .ok s ∧
      amount ⟨rate, .sum s⟩ p = .ok b ∧ u = ⟨rate, .amount b⟩ := by
  simp only [cycle, bySum, Outcome.bind_eq_ok, ofSum, of_eq_ok]
  constructor
  · rintro ⟨_, ⟨s, hsum, check, rfl⟩, h⟩
    obtain ⟨b, hamount, h⟩ := Outcome.bind_eq_ok.mp h
    exact ⟨check, s, b, hsum, hamount, (of_eq_ok.mp h).2⟩
  · rintro ⟨check, s, b, hsum, hamount, rfl⟩
    exact ⟨_, ⟨s, hsum, check, rfl⟩, Outcome.bind_eq_ok.mpr ⟨b, hamount, of_eq_ok.mpr ⟨check, rfl⟩⟩⟩

/-! ## Steady rates -/

section Steady

variable (few : p.digits ≤ 16) (steady : p.IsSteady rate.magnitude) (composed : a.unit.IsComposed)
  (told : a.unit.TellsRate rate)
include few steady composed told

/-- **The fraction of a steady rate** is not rounded. -/
theorem toRat_fraction (h : rate.convert .one p = .ok fraction) :
    fraction.value.toRat = rate.magnitude := by
  obtain ⟨places, least, most, value, tells, -⟩ := told.exists_places composed
  obtain ⟨conversion, converts, result, applied, rfl⟩ := Quantity.convert_eq_ok.mp h
  have power : (0 : ℚ) < 10 ^ places := by positivity
  have grid : OnGrid (places + (1 - p.digits)) rate.value.toRat := by
    rw [← value, mul_comm]
    exact steady.onGrid.zpow_mul places
  have digits : HasDigits p.digits rate.value.toRat := by
    refine grid.hasDigits ?_
    have next : places + (1 - (p.digits : ℤ)) + p.digits = places + 1 := by ring
    rw [next, zpow_add_one₀ (by norm_num), ← value, abs_of_nonneg (mul_nonneg steady.nonneg power.le)]
    nlinarith [steady.le]
  have exact := (tells conversion converts).toRat_apply few digits (grid.mono (by omega)) applied
  rw [← value] at exact
  exact mul_right_cancel₀ power.ne' exact

/-- **The amount in a sum** at a steady rate is kept of the exact quotient. -/
theorem toRat_amountInSum {s b : Quantity} (check : checkRate rate = .ok ⟨⟩) (unit : s.unit = a.unit)
    (h : amount ⟨rate, .sum s⟩ p = .ok b) :
    b.unit = a.unit ∧ b.value.toRat = p.keep (s.value.toRat / (1 + rate.magnitude)) := by
  have plain : rate.unit = .percent ∨ rate.unit = .one := told.symm.imp_left And.left
  obtain ⟨fraction, hfraction, -⟩ := amount_of_sum.mp h
  obtain ⟨same, -, divisor, sum, quotient⟩ := exists_quotient check (unit ▸ composed) plain hfraction h
  have eq : divisor.toRat = 1 + rate.magnitude := by
    have grid := p.onGrid_one.add steady.onGrid
    rw [toRat_divisor sum, toRat_fraction few steady composed told hfraction]
    refine p.keep_of_grid grid (by norm_num [maxPlaces]; omega) ?_
    rw [sub_add_cancel, abs_of_nonneg (by linarith [steady.nonneg])]
    linarith [steady.le]
  have narrow : divisor.mantissa < Decimal.wideFrom := by
    refine Precision.mantissa_lt_of_add few sum ?_
    rw [eq, abs_of_nonneg (by linarith [steady.nonneg])]
    linarith [steady.le]
  refine ⟨same.trans unit, ?_⟩
  rw [← eq]
  exact Precision.toRat_divide (Decimal.quotientHalfEven_of_lt _ narrow) quotient

/-- **The tax on an amount** at a steady rate is the rounded share of it. -/
theorem isRounded_tax (nearest : p.mode.isNearest = true)
    (some : a.value.toRat = 0 ∨ (10 : ℚ) ^ (p.digits - 25 : ℤ) ≤ a.value.toRat)
    (h : taxOnAmount a rate p = .ok tax) :
    p.IsRounded (a.value.toRat * rate.magnitude) tax.value.toRat := by
  obtain ⟨places, least, most, value, -, tells⟩ := told.exists_places composed
  obtain ⟨conversion, converts, whole, result, multiplied, applied, rfl⟩ := taxOnAmount_steps.mp h
  have power : (0 : ℚ) < 10 ^ places := by positivity
  have kept := Precision.toRat_multiply multiplied
  rw [← value, ← mul_assoc] at kept
  have digits : HasDigits p.digits whole.toRat := kept ▸ p.mode.hasDigits_toDigits p.digits_pos _
  have moved : OnGrid (places - 26) whole.toRat → result.toRat * 10 ^ places = whole.toRat :=
    fun grid => (tells conversion converts).toRat_apply few digits grid applied
  have amount : 0 ≤ a.value.toRat := by
    rcases some with zero | large
    · exact zero.ge
    · exact le_trans (by positivity) large
  rcases (mul_nonneg amount steady.nonneg).eq_or_lt with none | pos
  · rw [← none, zero_mul, Precision.keep_zero] at kept
    have zero := moved ⟨0, by simp [kept]⟩
    rw [kept, mul_eq_zero_iff_right power.ne'] at zero
    rw [← none, zero]
    exact p.isRounded_zero
  · have size := Precision.size_share steady some pos
    have exponent := Precision.size_mul_zpow pos places
    refine Precision.isRounded_of_keep nearest few places pos (by omega) ?_
    rw [← kept]
    refine moved ?_
    rw [kept]
    refine (p.onGrid_keep (mul_pos pos power) ?_).mono ?_ <;> rw [exponent]
    · norm_num [maxPlaces]
      omega
    · omega

/-- **A cycle** at a steady rate, on numbers. -/
theorem exists_cycle (nearest : p.mode.isNearest = true)
    (some : a.value.toRat = 0 ∨ (10 : ℚ) ^ (p.digits - 25 : ℤ) ≤ a.value.toRat)
    (h : cycle ⟨rate, .amount a⟩ p = .ok u) :
    ∃ b share, u = ⟨rate, .amount b⟩ ∧ b.unit = a.unit ∧
      p.IsRounded (a.value.toRat * rate.magnitude) share ∧
        b.value.toRat = p.keep (p.keep (a.value.toRat + share) / (1 + rate.magnitude)) := by
  obtain ⟨check, s, b, hsum, hamount, rfl⟩ := cycle_eq_ok.mp h
  obtain ⟨tax, htax, added⟩ := sum_of_amount.mp hsum
  obtain ⟨sumUnit, sumValue⟩ := Quantity.toRat_add (unit_taxOnAmount htax) added
  obtain ⟨unit, value⟩ := toRat_amountInSum few steady composed told check sumUnit hamount
  refine ⟨b, tax.value.toRat, rfl, unit, ?_, ?_⟩
  · exact isRounded_tax few steady composed told nearest some htax
  · rw [value, sumValue]

/-- **An amount that comes back** does so any number of times. -/
theorem cycles_comeBack (nearest : p.mode.isNearest = true)
    (some : a.value.toRat = 0 ∨ (10 : ℚ) ^ (p.digits - 25 : ℤ) ≤ a.value.toRat)
    (back : p.ComesBack rate.magnitude a.value.toRat)
    (h : cycles p n ⟨rate, .amount a⟩ = .ok u) :
    ∃ b, u = ⟨rate, .amount b⟩ ∧ b.unit = a.unit ∧ b.value.toRat = a.value.toRat := by
  induction n generalizing a with
  | zero => exact ⟨a, (Except.ok.inj h).symm, rfl, rfl⟩
  | succ n ih =>
      obtain ⟨next, hnext, h⟩ := Outcome.bind_eq_ok.mp h
      obtain ⟨b, share, rfl, unit, rounded, value⟩ :=
        exists_cycle few steady composed told nearest some hnext
      rw [back share rounded] at value
      obtain ⟨c, rfl, unit', value'⟩ := ih (unit ▸ composed) (unit ▸ told) (value ▸ some)
        (value ▸ back) h
      exact ⟨c, rfl, unit'.trans unit, value'.trans value⟩

end Steady

/-- **After one cycle amounts stay.**  At a steady rate that is told in the unit of the price, the
first cycle rounds an amount that is not tiny to nearest numbers, and any number of further cycles
does not change it any more. -/
theorem cycles_settle (given : ofAmount a rate = .ok t) (few : p.digits ≤ 16)
    (nearest : p.mode.isNearest = true) (composed : a.unit.IsComposed) (told : a.unit.TellsRate rate)
    (steady : p.IsSteady rate.magnitude)
    (some : a.value.toRat = 0 ∨ (10 : ℚ) ^ (p.digits - 24 : ℤ) ≤ a.value.toRat)
    (first : t.cycle p = .ok u) (further : cycles p n u = .ok v) :
    ∃ x y, u.amount p = .ok x ∧ v.amount p = .ok y ∧ x.unit = a.unit ∧ y.unit = a.unit ∧
      y.value.toRat = x.value.toRat := by
  obtain ⟨check, rfl⟩ := of_eq_ok.mp given
  have least : (10 : ℚ) ^ (p.digits - 25 : ℤ) ≤ 10 ^ (p.digits - 24 : ℤ) :=
    zpow_le_zpow_right₀ (by norm_num) (by omega)
  obtain ⟨b, share, rfl, unit, rounded, value⟩ :=
    exists_cycle few steady composed told nearest (some.imp_right least.trans) first
  have large := Precision.keep_quotient_large steady some rounded
  have back : p.ComesBack rate.magnitude b.value.toRat :=
    Precision.comesBack_quotient nearest few (p.mode.hasDigits_toDigits p.digits_pos _) steady
      value.symm (value ▸ large)
  obtain ⟨c, rfl, unit', value'⟩ := cycles_comeBack few steady (unit ▸ composed) (unit ▸ told) nearest
    (value ▸ large) back further
  exact ⟨b, c, rfl, rfl, unit, unit'.trans unit, value'⟩

/-- A price of eight digits in euros. -/
def eightDigitEuros : Quantity :=
  ⟨.ofDigits 12345678 6, .money "EUR" false⟩

/-- At 24 percent the eighth digit is lost in the first cycle, and nothing after it. -/
theorem cycles_settle_eightDigits : ∃ t u v x y,
    ofAmount eightDigitEuros ⟨.ofDigits 24 0, .percent⟩ = .ok t ∧ t.cycle .seven = .ok u ∧
      cycles .seven 2 u = .ok v ∧ u.amount .seven = .ok x ∧ v.amount .seven = .ok y ∧
        x.value.toRat ≠ eightDigitEuros.value.toRat ∧ y.value.toRat = x.value.toRat := by
  have given : ofAmount eightDigitEuros ⟨.ofDigits 24 0, .percent⟩ =
      .ok ⟨⟨.ofDigits 24 0, .percent⟩, .amount eightDigitEuros⟩ := rfl
  have first : cycle ⟨⟨.ofDigits 24 0, .percent⟩, .amount eightDigitEuros⟩ .seven =
      .ok ⟨⟨.ofDigits 24 0, .percent⟩, .amount ⟨.ofDigits 1234568 5, eightDigitEuros.unit⟩⟩ := rfl
  have further : cycles .seven 2
      ⟨⟨.ofDigits 24 0, .percent⟩, .amount ⟨.ofDigits 1234568 5, eightDigitEuros.unit⟩⟩ =
        .ok ⟨⟨.ofDigits 24 0, .percent⟩, .amount ⟨.ofDigits 1234568 5, eightDigitEuros.unit⟩⟩ := rfl
  have told : eightDigitEuros.unit.TellsRate ⟨.ofDigits 24 0, .percent⟩ :=
    .inr ⟨rfl, MeasureUnit.tellsPercent_money "EUR" false⟩
  have steady : Precision.seven.IsSteady (Quantity.magnitude ⟨.ofDigits 24 0, .percent⟩) := by
    have magnitude : Quantity.magnitude ⟨.ofDigits 24 0, .percent⟩ = 24 / 100 := by decide +kernel
    rw [magnitude]
    exact ⟨⟨124, -2, by norm_num, by decide⟩, by norm_num, by norm_num⟩
  have large : (10 : ℚ) ^ ((Precision.seven.digits : ℤ) - 24) ≤ eightDigitEuros.value.toRat := by
    decide +kernel
  obtain ⟨x, y, hx, hy, -, -, same⟩ :=
    cycles_settle given (by decide) rfl (.given rfl) told steady (.inr large) first further
  refine ⟨_, _, _, x, y, given, first, further, hx, hy, ?_, same⟩
  obtain rfl := Except.ok.inj hx
  decide

/-- Seven hundred euros. -/
def sevenHundred : Quantity :=
  ⟨.ofDigits 700 0, .money "EUR" false⟩

/-- A third in eight digits, of which one more in front is not kept. -/
def third : Quantity :=
  ⟨.ofDigits 33333333 6, .percent⟩

/-- **An amount that moves on.**  Seven hundred euros at a third are 700.0002 euros after one cycle
and 700.0004 after the next. -/
theorem cycles_drift : ∃ t u v x y fraction,
    ofAmount sevenHundred third = .ok t ∧ 0 ≤ sevenHundred.value.toRat ∧
      t.rate .seven = .ok fraction ∧ 0 ≤ fraction.value.toRat ∧ fraction.value.toRat ≤ 1 ∧
        t.cycle .seven = .ok u ∧ u.cycle .seven = .ok v ∧
          u.amount .seven = .ok x ∧ v.amount .seven = .ok y ∧ x.value.toRat < y.value.toRat := by
  have first : cycle ⟨third, .amount sevenHundred⟩ .seven =
      .ok ⟨third, .amount ⟨.ofDigits 7000002 4, sevenHundred.unit⟩⟩ := rfl
  have second : cycle ⟨third, .amount ⟨.ofDigits 7000002 4, sevenHundred.unit⟩⟩ .seven =
      .ok ⟨third, .amount ⟨.ofDigits 7000004 4, sevenHundred.unit⟩⟩ := rfl
  have fraction : TaxedPrice.rate ⟨third, .amount sevenHundred⟩ .seven =
      .ok ⟨.ofDigits 3333333 7, .one⟩ := rfl
  exact ⟨_, _, _, _, _, _, rfl, by decide, fraction, by decide, by decide, first, second, rfl, rfl,
    by decide⟩

end Tariff.TaxedPrice
