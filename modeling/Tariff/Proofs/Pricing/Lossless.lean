import Tariff.Proofs.Pricing.Drift
import Tariff.Proofs.Pricing.Equality

/-!
# Prices that lose nothing

An amount is given with its tax and without it again.  Where no exact result needs more
digits than are kept, each of them is found, and the amount that comes back is the one
that was given.

## Main definitions

* `TaxedPrice.StaysShort` — amounts and rates whose exact results are short

## Main statements

* `TaxedPrice.StaysShort.exists_fraction`, `exists_tax`, `exists_sum`, `exists_amount` —
  the steps of a cycle, none of which is rounded
* `TaxedPrice.StaysShort.exists_cycle` — a cycle brings back the amount
* `TaxedPrice.lossless` — tax, sum and any number of cycles

## Design notes

Only the fraction of the rate and what it is multiplied to are asked to be short.  The
product of an amount with a percentage is a hundred times the tax and may have two digits
more in front of the point, for which the bounds of short numbers leave room.

Amount and rate must be given, and the steps of a calculation must be possible: it is
shown that there are results, and not just what they are if there are any.
-/

namespace Tariff.TaxedPrice

/-- **An amount stays short** at a rate when all exact results of a cycle are. -/
structure StaysShort (p : Precision) (a rate : Quantity) : Prop where
  /-- At most sixteen digits are kept. -/
  few : p.digits ≤ 16
  /-- The amount is money, as such or for watt hours. -/
  unit : a.unit.IsAmountUnit
  /-- The rate is a percentage or a plain number. -/
  plain : rate.IsPlainRate
  /-- The rate is not negative. -/
  nonneg : 0 ≤ rate.magnitude
  /-- The amount is short. -/
  amount : IsShort p.digits a.value.toRat
  /-- The rate is short as it is given. -/
  given : IsShort p.digits rate.value.toRat
  /-- The rate is short as a fraction. -/
  fraction : IsShort p.digits rate.magnitude
  /-- One and the rate are short. -/
  divisor : IsShort p.digits (1 + rate.magnitude)
  /-- The tax is short. -/
  tax : IsShort p.digits (a.value.toRat * rate.magnitude)
  /-- The amount with its tax is short. -/
  sum : IsShort p.digits (a.value.toRat * (1 + rate.magnitude))

namespace StaysShort

variable {p : Precision} {a b s rate : Quantity}

/-- An amount of equal value in the same unit stays short as well. -/
theorem congr (short : StaysShort p a rate) (unit : b.unit = a.unit)
    (value : b.value.toRat = a.value.toRat) : StaysShort p b rate where
  few := short.few
  unit := unit ▸ short.unit
  plain := short.plain
  nonneg := short.nonneg
  amount := value ▸ short.amount
  given := short.given
  fraction := short.fraction
  divisor := short.divisor
  tax := value ▸ short.tax
  sum := value ▸ short.sum

/-- The rate is accepted. -/
theorem checkRate (short : StaysShort p a rate) : checkRate rate = .ok ⟨⟩ := by
  have ratio : 0 < rate.unit.ratio := by
    rcases short.plain with eq | eq <;> rw [eq]
    · rw [MeasureUnit.ratio_percent]
      positivity
    · rw [MeasureUnit.ratio_one]
      norm_num
  refine checkRate_eq_ok.mpr ⟨?_, ?_⟩
  · rcases short.plain with eq | eq <;> rw [Quantity.isDimensionless, Quantity.dimension, eq] <;> rfl
  · have value : 0 ≤ rate.value.toRat := nonneg_of_mul_nonneg_left short.nonneg ratio
    rw [Quantity.isNegative, ← Bool.not_eq_true, Decimal.isNegative_iff]
    exact value.not_gt

/-! ## The steps of a cycle -/

/-- **The rate as a fraction** is not rounded, also where more digits are kept. -/
theorem exists_fraction (short : StaysShort p a rate) {q : Precision} (few : q.digits ≤ 16)
    (more : p.digits ≤ q.digits) : ∃ fraction, rate.convert .one q = .ok fraction ∧
      fraction.unit = .one ∧ fraction.value.toRat = rate.magnitude := by
  obtain ⟨places, magnitude, ⟨c, converts, tells⟩, -⟩ := short.unit.exists_tells short.plain
  obtain ⟨value, told, eq⟩ := tells.exists_apply few ((short.given.mono more).passes few)
    (magnitude ▸ (short.fraction.mono more).passes few)
  exact ⟨⟨value, .one⟩, Quantity.convert_eq_ok.mpr ⟨c, converts, value, told, rfl⟩, rfl,
    eq.trans magnitude⟩

/-- **The tax** is not rounded. -/
theorem exists_tax (short : StaysShort p a rate) : ∃ tax, taxOnAmount a rate p = .ok tax ∧
    tax.unit = a.unit ∧ tax.value.toRat = a.value.toRat * rate.magnitude := by
  obtain ⟨places, magnitude, -, ⟨c, converts, tells⟩⟩ := short.unit.exists_tells short.plain
  have share : a.value.toRat * rate.value.toRat * 10 ^ (-places) = a.value.toRat * rate.magnitude := by
    rw [mul_assoc, magnitude]
  have after := short.tax
  rw [← share] at after
  -- the product is short or the hundredfold of a short number
  have before : Passes p.digits (a.value.toRat * rate.value.toRat) := by
    rcases tells with ⟨-, rfl⟩ | ⟨-, rfl⟩
    · rw [neg_zero, zpow_zero, mul_one] at after
      exact after.passes short.few
    · exact after.passes_hundredfold short.few
  obtain ⟨product, multiplied, eq⟩ := before.exists_multiply short.few
  rw [← eq] at before after share
  obtain ⟨tax, told, value⟩ := tells.exists_apply short.few before (after.passes short.few)
  have steps := taxOnAmount_steps.mpr ⟨c, converts, product, tax, multiplied, told, rfl⟩
  exact ⟨⟨tax, a.unit⟩, steps, rfl, value.trans share⟩

/-- **The sum** is not rounded. -/
theorem exists_sum (short : StaysShort p a rate) :
    ∃ s, TaxedPrice.sum ⟨rate, .amount a⟩ p = .ok s ∧ s.unit = a.unit ∧
      s.value.toRat = a.value.toRat * (1 + rate.magnitude) := by
  obtain ⟨tax, taxed, unit, value⟩ := short.exists_tax
  have whole : a.value.toRat + tax.value.toRat = a.value.toRat * (1 + rate.magnitude) := by
    rw [value, mul_add, mul_one]
  have passes := short.sum.passes short.few
  rw [← whole] at passes ⊢
  obtain ⟨result, added, eq⟩ := passes.exists_add short.few
  exact ⟨⟨result, a.unit⟩,
    sum_of_amount.mpr ⟨tax, taxed, Quantity.add_eq_ok_of_same unit added⟩, rfl, eq⟩

/-- **The amount in that sum** is the amount that was given. -/
theorem exists_amount (short : StaysShort p a rate) (unit : s.unit = a.unit)
    (value : s.value.toRat = a.value.toRat * (1 + rate.magnitude)) :
    ∃ b, TaxedPrice.amount ⟨rate, .sum s⟩ p = .ok b ∧ b.unit = a.unit ∧
      b.value.toRat = a.value.toRat := by
  obtain ⟨fraction, told, plain, eq⟩ := short.exists_fraction short.few le_rfl
  have positive : 1 + rate.magnitude ≠ 0 := by linarith [short.nonneg]
  have one : Decimal.one.toRat + fraction.value.toRat = 1 + rate.magnitude := by
    rw [Decimal.toRat_one, eq]
  have passes := short.divisor.passes short.few
  rw [← one] at passes
  obtain ⟨divisor, added, sum⟩ := passes.exists_add short.few
  rw [one] at sum
  have quotient : s.value.toRat / divisor.toRat = a.value.toRat := by
    rw [value, sum, mul_div_cancel_right₀ _ positive]
  have back := short.amount.passes short.few
  rw [← quotient] at back
  obtain ⟨result, divided, back⟩ := back.exists_divide short.few (sum ▸ positive)
  have identity : (s.unit.divide .one).conversionTo s.unit = .ok .identity :=
    (unit ▸ short.unit.isComposed : s.unit.IsComposed).conversionTo_divide_one
  refine ⟨⟨result, s.unit⟩, amount_of_sum.mpr ⟨fraction, told, amountInSum_eq_ok.mpr
    ⟨⟨divisor, .one⟩, Quantity.add_eq_ok_of_same plain added, ⟨result, s.unit.divide .one⟩, ?_, ?_⟩⟩,
    unit, back.trans quotient⟩
  · exact Quantity.divide_eq_ok.mpr ⟨result, divided, rfl⟩
  · exact Quantity.convert_eq_ok.mpr ⟨_, identity, result, Conversion.identity_apply p result, rfl⟩

/-! ## Cycles -/

/-- **A cycle** brings back the amount. -/
theorem exists_cycle (short : StaysShort p a rate) :
    ∃ b, cycle ⟨rate, .amount a⟩ p = .ok ⟨rate, .amount b⟩ ∧ b.unit = a.unit ∧
      b.value.toRat = a.value.toRat := by
  obtain ⟨s, hsum, sumUnit, sumValue⟩ := short.exists_sum
  obtain ⟨b, hamount, unit, value⟩ := short.exists_amount sumUnit sumValue
  exact ⟨b, cycle_eq_ok.mpr ⟨short.checkRate, s, b, hsum, hamount, rfl⟩, unit, value⟩

/-- So does any number of cycles. -/
theorem exists_cycles (short : StaysShort p a rate) (n : ℕ) :
    ∃ b, cycles p n ⟨rate, .amount a⟩ = .ok ⟨rate, .amount b⟩ ∧ b.unit = a.unit ∧
      b.value.toRat = a.value.toRat := by
  induction n generalizing a with
  | zero => exact ⟨a, rfl, rfl, rfl⟩
  | succ n ih =>
      obtain ⟨b, first, unit, value⟩ := short.exists_cycle
      obtain ⟨c, further, unit', value'⟩ := ih (short.congr unit value)
      exact ⟨c, Outcome.bind_eq_ok.mpr ⟨_, first, further⟩, unit'.trans unit, value'.trans value⟩

/-- **Prices of equal amounts** are equal at a rate that can be told. -/
theorem equal_of_same (short : StaysShort p a rate) (unit : b.unit = a.unit)
    (value : b.value.toRat = a.value.toRat) :
    equal ⟨rate, .amount a⟩ ⟨rate, .amount b⟩ = true := by
  obtain ⟨fraction, told, -⟩ := short.exists_fraction (q := .sixteen) le_rfl short.few
  have converted : b.convert a.unit .sixteen = .ok ⟨b.value, a.unit⟩ := by
    rw [← unit]
    exact b.convert_self _
  have measures : a.dimension = b.dimension := by rw [Quantity.dimension, Quantity.dimension, unit]
  refine (agrees_eq_true_iff rfl (rate_eq_ok.mpr told) rfl (rate_eq_ok.mpr told)).mpr ⟨rfl, ?_⟩
  refine Quantity.compare_eq_ok.mpr ⟨measures, b.value, converted, ?_⟩
  have same := (Decimal.sameValue_iff _ _).mpr value.symm
  rwa [Decimal.sameValue, beq_iff_eq, eq_comm] at same

end StaysShort

/-- **Nothing is lost** where all exact results are short, in any mode of rounding.  The price has
its exact sum and its exact tax.  Any number of times it can be given by its sum and by its amount
again: it has the same amount then, and it is equal to the price that was given. -/
theorem lossless {p : Precision} {a rate : Quantity} (short : StaysShort p a rate) :
    ∃ t, ofAmount a rate = .ok t ∧
      (∃ s, t.sum p = .ok s ∧ s.unit = a.unit ∧
        s.value.toRat = a.value.toRat * (1 + rate.magnitude)) ∧
      (∃ tax, t.tax p = .ok tax ∧ tax.unit = a.unit ∧
        tax.value.toRat = a.value.toRat * rate.magnitude) ∧
      ∀ n, ∃ u b, cycles p n t = .ok u ∧ u.amount p = .ok b ∧ b.unit = a.unit ∧
        b.value.toRat = a.value.toRat ∧ u.equal t = true ∧ t.equal u = true := by
  refine ⟨⟨rate, .amount a⟩, of_eq_ok.mpr ⟨short.checkRate, rfl⟩, short.exists_sum, ?_, ?_⟩
  · obtain ⟨tax, taxed, facts⟩ := short.exists_tax
    exact ⟨tax, Outcome.ofMeasured_eq_ok.mpr taxed, facts⟩
  · intro n
    obtain ⟨b, run, unit, value⟩ := short.exists_cycles n
    exact ⟨_, b, run, rfl, unit, value,
      (short.congr unit value).equal_of_same unit.symm value.symm, short.equal_of_same unit value⟩

/-- Four digits, rounded up. -/
def fourUp : Precision := ⟨4, .up, by decide, by decide⟩

/-- 3.4 cents for a kilowatt hour. -/
def shortCents : Quantity :=
  ⟨.ofDigits 34 1, .pricePer "EUR" true .kilowattHour⟩

/-- 25.5 percent. -/
def shortRate : Quantity :=
  ⟨.ofDigits 255 1, .percent⟩

/-- At this rate the price in cents has no result of more than four digits. -/
theorem staysShort_cents : StaysShort fourUp shortCents shortRate := by
  have amount : shortCents.value.toRat = 34 / 10 := by decide +kernel
  have given : shortRate.value.toRat = 255 / 10 := by decide +kernel
  have magnitude : shortRate.magnitude = 255 / 1000 := by decide +kernel
  have short : ∀ (n places : ℕ) {x : ℚ}, x = n * 10 ^ (-(places : ℤ)) → 1 ≤ n → n < 10 ^ 4 →
      places ≤ 8 → IsShort 4 x := fun n places _ eq positive few within =>
    isShort_of_places n places positive few (few.le.trans (by decide)) within eq
  exact {
    few := by decide
    unit := ⟨"EUR", true, .inr ⟨.kilowattHour, by simp [MeasureUnit.wattHours], rfl⟩⟩
    plain := .inl rfl
    nonneg := by norm_num [magnitude]
    amount := short 34 1 (by norm_num [amount]) (by decide) (by decide) (by decide)
    given := short 255 1 (by norm_num [given]) (by decide) (by decide) (by decide)
    fraction := short 255 3 (by norm_num [magnitude]) (by decide) (by decide) (by decide)
    divisor := short 1255 3 (by norm_num [magnitude]) (by decide) (by decide) (by decide)
    tax := short 867 3 (by norm_num [amount, magnitude]) (by decide) (by decide) (by decide)
    sum := short 4267 3 (by norm_num [amount, magnitude]) (by decide) (by decide) (by decide) }

/-- So it is still the same after three cycles, although results of more digits are rounded up. -/
theorem lossless_cents : StaysShort fourUp shortCents shortRate ∧
    ∃ t u b, ofAmount shortCents shortRate = .ok t ∧ cycles fourUp 3 t = .ok u ∧
      u.amount fourUp = .ok b ∧ b.value.toRat = shortCents.value.toRat ∧
        u.equal t = true ∧ t.equal u = true := by
  obtain ⟨t, given, -, -, run⟩ := lossless staysShort_cents
  obtain ⟨u, b, cycled, amount, -, value, equal⟩ := run 3
  exact ⟨staysShort_cents, t, u, b, given, cycled, amount, value, equal⟩

end Tariff.TaxedPrice
