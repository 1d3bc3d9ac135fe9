import Tariff.Proofs.Measure.PriceUnit
import Tariff.Proofs.Pricing.Normalization

/-!
# Cheaper prices stay cheaper

From a published price to a total lead a conversion, a product with the rate of
tax, a conversion back and two sums, and all of them round.  None of these steps
turns two prices round: a slot whose published price is not higher has a total,
a rank and a place that are not higher either.

## Main statements

* `Schedule.SlotFor.spot_mono` — spot prices stand in the order of published prices
* `Schedule.SlotFor.charge_mono` — and so do totals
* `Schedule.build_mono` — cheaper prices stay cheaper

## Design notes

The spot price is divided by a denominator of at most 64 bits, and so its quotient
is always stored half-even.  The quotient of the tax may have a wide denominator
when the rate is told in an unusual unit; under a precision of all 28 digits
half-even division is asked for there.  For rates in percent and plain rates it holds
without being asked for (`SlotFor.dividesHalfEven`).
-/

namespace Tariff

namespace Schedule

variable {c : Contract} {s : Publication} {schedule : Schedule} {point x y : PricePoint}
  {slot a b : Slot}

/-- The rate of a contract that is in order is not negative. -/
theorem Built.rate_nonneg (built : Built c s schedule) :
    0 ≤ c.effectiveSellerRate.value.toRat :=
  TaxedPrice.rate_nonneg (Contract.checkRate_of_validate built.contract).2

/-- **Spot prices stand in the order of published prices.** -/
theorem SlotFor.spot_mono (built : Built c s schedule) (forA : SlotFor c s schedule x a)
    (forB : SlotFor c s schedule y b) (le : x.price.toRat ≤ y.price.toRat) :
    ∃ value value' : Decimal, value.toRat ≤ value'.toRat ∧
      a.spot = ⟨c.effectiveSellerRate, .amount ⟨value, schedule.unit⟩⟩ ∧
        b.spot = ⟨c.effectiveSellerRate, .amount ⟨value', schedule.unit⟩⟩ := by
  obtain ⟨source, price, hsource, converted, spotA⟩ := forA.spot
  obtain ⟨source', price', hsource', converted', spotB⟩ := forB.spot
  obtain ⟨conversion, hconversion, value, hvalue, rfl⟩ := Quantity.convert_eq_ok.mp converted
  obtain ⟨conversion', hconversion', value', hvalue', rfl⟩ := Quantity.convert_eq_ok.mp converted'
  -- both prices are told in the target unit by one conversion
  obtain rfl := Except.ok.inj (hsource.symm.trans hsource')
  obtain rfl := Except.ok.inj (hconversion.symm.trans hconversion')
  refine ⟨value, value', ?_, spotA, spotB⟩
  obtain ⟨_, energy, henergy, rfl⟩ := Publication.unit_eq_ok hsource
  obtain ⟨_, other, hother, unit⟩ := Contract.targetUnit_eq_ok built.unit
  rw [unit] at hconversion
  have nonneg := MeasureUnit.conversionTo_nonneg (MeasureUnit.isPositive_pricePer _ _ henergy)
    (MeasureUnit.isPositive_pricePer _ _ hother) hconversion
  have even (price : Decimal) := Conversion.dividesHalfEven_of_lt
    (MeasureUnit.denominator_lt_wideFrom henergy hother hconversion) price c.precision
  exact Conversion.apply_mono nonneg.1 nonneg.2 (even _) (even _) le hvalue hvalue'

/-- **Totals stand in the order of published prices.** -/
theorem SlotFor.charge_mono (built : Built c s schedule) (forA : SlotFor c s schedule x a)
    (forB : SlotFor c s schedule y b) (standard : c.effectiveSellerRate.unit.IsStandard)
    (evenA : c.precision.DividesHalfEven (a.spot.quotients c.precision))
    (evenB : c.precision.DividesHalfEven (b.spot.quotients c.precision))
    (le : x.price.toRat ≤ y.price.toRat) : a.charge ≤ b.charge := by
  obtain ⟨-, fees, sum, hfees, hsum, chargeA⟩ := forA.toRat_total built
  obtain ⟨-, fees', sum', hfees', hsum', chargeB⟩ := forB.toRat_total built
  obtain rfl := Except.ok.inj (hfees.symm.trans hfees')
  obtain ⟨value, value', prices, spotA, spotB⟩ := forA.spot_mono built forB le
  rw [spotA] at hsum evenA
  rw [spotB] at hsum' evenB
  obtain ⟨tax, htax⟩ := TaxedPrice.exists_conversion hsum
  have target : schedule.unit.isPositive = true := by
    obtain ⟨_, energy, henergy, unit⟩ := Contract.targetUnit_eq_ok built.unit
    rw [unit]
    exact MeasureUnit.isPositive_pricePer _ _ henergy
  have nonneg := MeasureUnit.conversionTo_nonneg
    (MeasureUnit.isPositive_multiply target standard.isPositive) target htax
  have unit : (Quantity.mk value' schedule.unit).unit = (Quantity.mk value schedule.unit).unit :=
    rfl
  have sums := TaxedPrice.sum_mono htax nonneg built.rate_nonneg unit evenA evenB prices hsum hsum'
  rw [chargeA, chargeB]
  exact c.precision.keep_mono (add_le_add_right sums _)

/-- **Cheaper prices stay cheaper.**  Of two slots the one whose published price
is not higher has a total, a rank and a place that are not higher. -/
theorem build_mono {i j : ℕ} {a b : Slot} {x y : PricePoint}
    (h : build c s = .ok schedule) (standard : c.effectiveSellerRate.unit.IsStandard)
    (ha : schedule.slots[i]? = some a) (hb : schedule.slots[j]? = some b)
    (hx : x ∈ s.points ∧ x.position = i + 1) (hy : y ∈ s.points ∧ y.position = j + 1)
    (evenA : c.precision.DividesHalfEven (a.spot.quotients c.precision))
    (evenB : c.precision.DividesHalfEven (b.spot.quotients c.precision))
    (le : x.price.toRat ≤ y.price.toRat) :
    a.charge ≤ b.charge ∧ a.rank ≤ b.rank ∧ a.normalized.toRat ≤ b.normalized.toRat := by
  have built := built_of_build h
  have memA := List.mem_of_getElem? ha
  have memB := List.mem_of_getElem? hb
  have charges : a.charge ≤ b.charge :=
    (built.slotFor ha hx.1 hx.2).charge_mono built (built.slotFor hb hy.1 hy.2) standard
      evenA evenB le
  exact ⟨charges, (built.rank_le_rank_iff memA memB).mpr charges,
    built.normalized_le memA memB charges⟩

/-- A rate in percent or a plain rate leaves no choice how quotients are
stored. -/
theorem SlotFor.dividesHalfEven (built : Built c s schedule)
    (slotFor : SlotFor c s schedule point slot)
    (plain : c.effectiveSellerRate.unit = .percent ∨ c.effectiveSellerRate.unit = .one) :
    c.precision.DividesHalfEven (slot.spot.quotients c.precision) := by
  obtain ⟨source, price, -, converted, spotPrice⟩ := slotFor.spot
  obtain ⟨_, -, value, -, rfl⟩ := Quantity.convert_eq_ok.mp converted
  obtain ⟨code, energy, henergy, unit⟩ := Contract.targetUnit_eq_ok built.unit
  rw [spotPrice]
  refine TaxedPrice.dividesHalfEven_of_lt ?_
  intro conversion hconversion
  change (schedule.unit.multiply c.effectiveSellerRate.unit).conversionTo schedule.unit = _
    at hconversion
  rw [unit] at hconversion
  exact MeasureUnit.tax_denominator_lt_wideFrom henergy plain hconversion

/-- The second of three hours is published cheaper than the first and stays so. -/
theorem build_mono_threeHours : ∃ schedule a b,
    build .twoRates .threeHours = .ok schedule ∧
      schedule.slots[1]? = some a ∧ schedule.slots[0]? = some b ∧
        a.charge ≤ b.charge ∧ a.rank ≤ b.rank ∧ a.normalized.toRat ≤ b.normalized.toRat := by
  obtain ⟨schedule, h⟩ := exists_threeHours
  have built := built_of_build h
  have length : schedule.slots.length = 3 := built.length_slots
  have second : schedule.slots[1]? = some schedule.slots[1] := List.getElem?_eq_getElem _
  have first : schedule.slots[0]? = some schedule.slots[0] := List.getElem?_eq_getElem _
  have standard : MeasureUnit.percent.IsStandard := .given ⟨"%", rfl⟩
  have x : (⟨2, .ofDigits 50 0⟩ : PricePoint) ∈ Publication.threeHours.points ∧ 2 = 1 + 1 := by
    decide
  have y : (⟨1, .ofDigits 10049 2⟩ : PricePoint) ∈ Publication.threeHours.points ∧ 1 = 0 + 1 := by
    decide
  have cheaper : (Decimal.ofDigits 50 0).toRat ≤ (Decimal.ofDigits 10049 2).toRat := by
    decide
  refine ⟨schedule, _, _, h, second, first, build_mono h standard second first x y ?_ ?_ cheaper⟩
  · exact (built.slotFor second x.1 x.2).dividesHalfEven built (.inl rfl)
  · exact (built.slotFor first y.1 y.2).dividesHalfEven built (.inl rfl)

end Schedule

end Tariff
