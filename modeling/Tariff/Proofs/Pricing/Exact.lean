import Tariff.Proofs.Measure.Exact
import Tariff.Proofs.Pricing.Course

/-!
# Totals without rounding

Where the exact results of all steps are short numbers, nothing is rounded on
the way from a published price to a total.

## Main definitions

* `MeasureUnit.IsPriceUnit` — a currency or its hundredth for watt hours
* `Fees.exactNet`, `Fees.exactPrice` — a fee in another unit, and with its tax
* `Fees.StaysShort`, `Contract.StaysShort` — all exact results are short

## Main statements

* `Quantity.toRat_convert_of_short` — a conversion between prices without rounding
* `TaxedPrice.toRat_sum_of_short` — a price with tax without rounding
* `Schedule.build_exact` — totals without rounding

## Design notes

Only the results that a calculation arrives at are asked to be short.  On the
way there it passes through larger ones, a price in percent or 36 times a price,
for which the bounds of short numbers leave room.  The rates themselves are not
asked anything: they only take part in products.
-/

namespace Tariff

/-- **Units of prices** in one currency: the currency or its hundredth for the
watt hour or one of its multiples. -/
def MeasureUnit.IsPriceUnit (code : String) (unit : MeasureUnit) : Prop :=
  ∃ hundredth, ∃ energy ∈ wattHours, unit = pricePer code hundredth energy

/-- A rate in percent or a plain one. -/
def Quantity.IsPlainRate (rate : Quantity) : Prop :=
  rate.unit = .percent ∨ rate.unit = .one

variable {p : Precision} {code : String}

/-! ## One step -/

/-- **A conversion between prices without rounding.** -/
theorem Quantity.toRat_convert_of_short {q result : Quantity} {unit : MeasureUnit}
    (few : p.digits ≤ 16) (hq : q.unit.IsPriceUnit code) (hunit : unit.IsPriceUnit code)
    (before : IsShort p.digits q.value.toRat)
    (after : IsShort p.digits (q.value.toRat * (q.unit.ratio / unit.ratio)))
    (h : q.convert unit p = .ok result) :
    result.value.toRat = q.value.toRat * (q.unit.ratio / unit.ratio) := by
  obtain ⟨conversion, converts, value, hvalue, rfl⟩ := Quantity.convert_eq_ok.mp h
  obtain ⟨hundredth, source, hsource, sourceUnit⟩ := hq
  obtain ⟨part, target, htarget, targetUnit⟩ := hunit
  rw [sourceUnit, targetUnit] at converts after ⊢
  obtain ⟨shift, shifts, ratio⟩ := MeasureUnit.shifts_pricePer hsource htarget converts
  rw [ratio] at after ⊢
  exact Conversion.toRat_apply_of_shifts shifts few (before.passes few) (after.passes few) hvalue

/-- **A price with tax without rounding.** -/
theorem TaxedPrice.toRat_sum_of_short {price rate result : Quantity} (few : p.digits ≤ 16)
    (hprice : price.unit.IsPriceUnit code) (plain : rate.IsPlainRate)
    (tax : IsShort p.digits (price.value.toRat * rate.magnitude))
    (sum : IsShort p.digits (price.value.toRat * (1 + rate.magnitude)))
    (h : TaxedPrice.sum ⟨rate, .amount price⟩ p = .ok result) :
    result.value.toRat = price.value.toRat * (1 + rate.magnitude) := by
  obtain ⟨told, htold, added⟩ := sum_of_amount.mp h
  obtain ⟨conversion, converts, value, taxValue, hvalue, happly, rfl⟩ := taxOnAmount_steps.mp htold
  obtain ⟨hundredth, energy, henergy, unit⟩ := hprice
  rw [unit] at converts
  obtain ⟨shift, shifts, ratio, two⟩ := MeasureUnit.shifts_tax henergy plain converts
  have fraction : price.value.toRat * rate.magnitude =
      price.value.toRat * rate.value.toRat * 10 ^ shift := by
    rw [Quantity.magnitude, ratio, mul_assoc]
  rw [fraction] at tax
  -- the product is short or the hundredfold of a short number
  have passes : Passes p.digits (price.value.toRat * rate.value.toRat) := by
    rcases two with rfl | rfl
    · exact tax.passes_hundredfold few
    · rw [zpow_zero, mul_one] at tax
      exact tax.passes few
  have exactProduct : value.toRat = price.value.toRat * rate.value.toRat := by
    rw [Precision.toRat_multiply hvalue, passes.keep_eq few]
  rw [← exactProduct] at passes tax fraction
  have exactTax := Conversion.toRat_apply_of_shifts shifts few passes (tax.passes few) happly
  have same : (Quantity.mk taxValue price.unit).unit = price.unit := rfl
  calc result.value.toRat
      = p.keep (price.value.toRat + taxValue.toRat) := (Quantity.toRat_add same added).2
    _ = p.keep (price.value.toRat * (1 + rate.magnitude)) := by
      rw [exactTax, ← fraction, mul_add, mul_one]
    _ = price.value.toRat * (1 + rate.magnitude) := sum.keep_eq few

/-! ## Fees -/

namespace Fees

/-- A fee in the target unit, exactly; a fee that is not stated is nothing. -/
def exactNet (target : MeasureUnit) : Option Quantity → ℚ
  | some fee => fee.value.toRat * (fee.unit.ratio / target.ratio)
  | none => 0

/-- **A fee with its tax**, exactly. -/
def exactPrice (c : Contract) (target : MeasureUnit) (fee : Option Quantity) (rate : Quantity) :
    ℚ :=
  if c.feesIncludeTax then exactNet target fee
  else exactNet target fee * (1 + rate.magnitude)

/-- **A fee stays short** when it is short as it is given, in the target unit
and, where it is given without tax, with its tax. -/
structure StaysShort (c : Contract) (code : String) (target : MeasureUnit)
    (fee : Option Quantity) (rate : Quantity) : Prop where
  /-- The fee is told in the currency of the target unit. -/
  unit : ∀ given, fee = some given → given.unit.IsPriceUnit code
  /-- The fee is short as it is given. -/
  given : ∀ given, fee = some given → IsShort c.precision.digits given.value.toRat
  /-- The fee is short in the target unit. -/
  net : IsShort c.precision.digits (exactNet target fee)
  /-- The tax on the fee is short. -/
  tax : c.feesIncludeTax = false →
    IsShort c.precision.digits (exactNet target fee * rate.magnitude)
  /-- The fee with its tax is short. -/
  sum : c.feesIncludeTax = false →
    IsShort c.precision.digits (exactNet target fee * (1 + rate.magnitude))

variable {c : Contract} {target : MeasureUnit} {fee : Option Quantity} {rate result : Quantity}
  {t : TaxedPrice}

/-- A fee is told in the target unit without rounding. -/
theorem StaysShort.toRat_given (short : StaysShort c code target fee rate)
    (few : c.precision.digits ≤ 16) (htarget : target.IsPriceUnit code) {given : Quantity}
    (h : IsGiven c.precision target fee given) :
    given.unit = target ∧ given.value.toRat = exactNet target fee := by
  cases fee with
  | none =>
      obtain rfl := h
      exact ⟨rfl, Decimal.toRat_zero⟩
  | some fee =>
      obtain ⟨_, -, _, -, rfl⟩ := Quantity.convert_eq_ok.mp h
      exact ⟨rfl, Quantity.toRat_convert_of_short few (short.unit fee rfl) htarget
        (short.given fee rfl) short.net h⟩

/-- **A fee with its tax without rounding.** -/
theorem StaysShort.toRat_sum (short : StaysShort c code target fee rate)
    (few : c.precision.digits ≤ 16) (htarget : target.IsPriceUnit code)
    (plain : rate.IsPlainRate) (price : IsPrice c target fee rate t)
    (h : t.sum c.precision = .ok result) :
    result.value.toRat = exactPrice c target fee rate := by
  obtain ⟨given, hgiven, rfl⟩ := price
  obtain ⟨unit, net⟩ := short.toRat_given few htarget hgiven
  unfold exactPrice
  cases convention : c.feesIncludeTax with
  | true =>
      rw [convention, if_pos rfl] at h
      rw [← TaxedPrice.sum_of_sum.mp h, if_pos rfl, net]
  | false =>
      rw [convention, if_neg Bool.false_ne_true] at h
      rw [if_neg Bool.false_ne_true, ← net]
      refine TaxedPrice.toRat_sum_of_short few (unit ▸ htarget) plain ?_ ?_ h
      · rw [net]
        exact short.tax convention
      · rw [net]
        exact short.sum convention

end Fees

/-! ## Totals -/

/-- **All fees together**, exactly. -/
def Contract.exactFees (c : Contract) (target : MeasureUnit) : ℚ :=
  Fees.exactPrice c target c.transfer c.generalRate +
    Fees.exactPrice c target c.tax c.generalRate +
      Fees.exactPrice c target c.margin c.effectiveSellerRate

/-- **A published price with its tax**, exactly, in the target unit. -/
def Contract.exactSpot (c : Contract) (source target : MeasureUnit) (price : ℚ) : ℚ :=
  price * (source.ratio / target.ratio) * (1 + c.effectiveSellerRate.magnitude)

/-- **A contract stays short** with a publication when all exact results on the
way to its totals are short. -/
structure Contract.StaysShort (c : Contract) (code : String) (s : Publication)
    (source target : MeasureUnit) : Prop where
  /-- At most sixteen digits are kept. -/
  few : c.precision.digits ≤ 16
  /-- Prices are published in the currency. -/
  sourceUnit : source.IsPriceUnit code
  /-- Prices are told in the currency. -/
  targetUnit : target.IsPriceUnit code
  /-- The general rate is a percentage or a plain number. -/
  generalRate : c.generalRate.IsPlainRate
  /-- So is the rate of the seller. -/
  sellerRate : c.effectiveSellerRate.IsPlainRate
  /-- The fee for distribution stays short. -/
  transfer : Fees.StaysShort c code target c.transfer c.generalRate
  /-- The tax on energy stays short. -/
  tax : Fees.StaysShort c code target c.tax c.generalRate
  /-- The margin stays short. -/
  margin : Fees.StaysShort c code target c.margin c.effectiveSellerRate
  /-- The first two fees together are short. -/
  both : IsShort c.precision.digits
    (Fees.exactPrice c target c.transfer c.generalRate +
      Fees.exactPrice c target c.tax c.generalRate)
  /-- All fees together are short. -/
  fees : IsShort c.precision.digits (c.exactFees target)
  /-- Prices are short as they are published. -/
  published : ∀ point ∈ s.points, IsShort c.precision.digits point.price.toRat
  /-- Prices are short in the target unit. -/
  net : ∀ point ∈ s.points,
    IsShort c.precision.digits (point.price.toRat * (source.ratio / target.ratio))
  /-- The tax on prices is short. -/
  spotTax : ∀ point ∈ s.points, IsShort c.precision.digits
    (point.price.toRat * (source.ratio / target.ratio) * c.effectiveSellerRate.magnitude)
  /-- Prices with their tax are short. -/
  spot : ∀ point ∈ s.points,
    IsShort c.precision.digits (c.exactSpot source target point.price.toRat)
  /-- Totals are short. -/
  total : ∀ point ∈ s.points,
    IsShort c.precision.digits (c.exactFees target + c.exactSpot source target point.price.toRat)

namespace Schedule

variable {c : Contract} {s : Publication} {schedule : Schedule} {source : MeasureUnit}

/-- All fees are added without rounding. -/
theorem Built.toRat_fees_of_short (built : Built c s schedule)
    (short : c.StaysShort code s source schedule.unit) {fees : Quantity}
    (h : schedule.fees.sum c.precision = .ok fees) :
    fees.value.toRat = c.exactFees schedule.unit := by
  obtain ⟨transferPrice, taxPrice, marginPrice⟩ := Fees.ofContract_eq_ok built.fees
  obtain ⟨-, transfer, tax, margin, htransfer, htax, hmargin, value⟩ :=
    Fees.toRat_sum (Fees.unit_ofContract built.fees) h
  have transferValue := short.transfer.toRat_sum short.few short.targetUnit short.generalRate
    transferPrice htransfer
  have taxValue := short.tax.toRat_sum short.few short.targetUnit short.generalRate taxPrice htax
  have marginValue := short.margin.toRat_sum short.few short.targetUnit short.sellerRate
    marginPrice hmargin
  rw [value, transferValue, taxValue, marginValue, short.both.keep_eq short.few]
  exact short.fees.keep_eq short.few

/-- **Totals without rounding.**  Where all exact results are short, the total of
a slot is the exact sum of its fees and its price, each with its tax. -/
theorem build_exact {k : ℕ} {slot : Slot} {point : PricePoint} (h : build c s = .ok schedule)
    (hsource : s.unit = .ok source) (short : c.StaysShort code s source schedule.unit)
    (hslot : schedule.slots[k]? = some slot)
    (hpoint : point ∈ s.points ∧ point.position = k + 1) :
    slot.charge =
      c.exactFees schedule.unit + c.exactSpot source schedule.unit point.price.toRat := by
  have built := built_of_build h
  have slotFor := built.slotFor hslot hpoint.1 hpoint.2
  obtain ⟨-, fees, sum, hfees, hsum, charge⟩ := slotFor.toRat_total built
  obtain ⟨other, price, hother, converted, spot⟩ := slotFor.spot
  obtain rfl := Except.ok.inj (hsource.symm.trans hother)
  have net := Quantity.toRat_convert_of_short short.few short.sourceUnit short.targetUnit
    (short.published point hpoint.1) (short.net point hpoint.1) converted
  have unit : price.unit = schedule.unit := by
    obtain ⟨_, -, _, -, rfl⟩ := Quantity.convert_eq_ok.mp converted
    rfl
  have taxed : sum.value.toRat = c.exactSpot source schedule.unit point.price.toRat := by
    rw [spot] at hsum
    unfold Contract.exactSpot
    rw [← net]
    refine TaxedPrice.toRat_sum_of_short short.few (unit ▸ short.targetUnit) short.sellerRate ?_ ?_ hsum
    · rw [net]
      exact short.spotTax point hpoint.1
    · rw [net]
      exact short.spot point hpoint.1
  rw [charge, built.toRat_fees_of_short short hfees, taxed]
  exact (short.total point hpoint.1).keep_eq short.few

end Schedule

/-! ## Three hours without rounding -/

/-- A percentage of tenths of a percent. -/
theorem Quantity.magnitude_percent {tenths : ℕ} (room : tenths < mantissaLimit) :
    Quantity.magnitude ⟨.ofDigits tenths 1, .percent⟩ = tenths * 10 ^ (-3 : ℤ) := by
  rw [magnitude, MeasureUnit.ratio_percent, Decimal.toRat_ofDigits room (by decide)]
  norm_num
  ring

theorem ratio_centPerKilowattHour :
    (MeasureUnit.pricePer "EUR" false .megawattHour).ratio / centPerKilowattHour.ratio =
      10 ^ (-1 : ℤ) ∧ centPerKilowattHour.ratio ≠ 0 := by
  have target : centPerKilowattHour = .pricePer "EUR" true .kilowattHour := rfl
  have hundredth : (MeasureUnit.moneyFactor true).toRat = 10 ^ (-2 : ℤ) := by
    rw [MeasureUnit.moneyFactor, if_pos rfl, Decimal.toRat_ofDigits (by decide) (by decide)]
    norm_num
  have thousand : MeasureUnit.megawattHour.ratio = 1000 * MeasureUnit.kilowattHour.ratio := by
    rw [MeasureUnit.megawattHour, MeasureUnit.ratio, Decimal.toRat_ofDigits (by decide) (by decide)]
    norm_num
  have metered : MeasureUnit.kilowattHour ∈ MeasureUnit.wattHours := by
    simp [MeasureUnit.wattHours]
  obtain ⟨n, -, joules, -⟩ := MeasureUnit.wattHours_facts metered
  have positive : (0 : ℚ) < 10 ^ n := by positivity
  rw [target, MeasureUnit.ratio_pricePer _ _ (by simp [MeasureUnit.energyUnits]),
    MeasureUnit.ratio_pricePer _ _ (by simp [MeasureUnit.energyUnits]), hundredth, thousand, joules,
    MeasureUnit.moneyFactor, if_neg Bool.false_ne_true, Decimal.toRat_one]
  constructor
  · field_simp
    norm_num
  · positivity

/-- A few cents for a kilowatt hour stay short with a tax of a few percent. -/
theorem Fees.staysShort_of_cents (cents : ℕ) {tenths : ℕ} {rate : Quantity}
    (hcents : 1 ≤ cents ∧ cents ≤ 1000) (htenths : 1 ≤ tenths ∧ tenths ≤ 1000)
    (hrate : rate.magnitude = tenths * 10 ^ (-3 : ℤ)) :
    exactPrice .twoRates centPerKilowattHour (some ⟨.ofDigits cents 2, centPerKilowattHour⟩) rate =
        (cents * (1000 + tenths) : ℕ) * 10 ^ (-5 : ℤ) ∧
      StaysShort .twoRates "EUR" centPerKilowattHour
        (some ⟨.ofDigits cents 2, centPerKilowattHour⟩) rate := by
  have limit : mantissaLimit = 79228162514264337593543950336 := rfl
  have digits : Contract.twoRates.precision.digits = 16 := rfl
  have value : (Decimal.ofDigits cents 2).toRat = cents * 10 ^ (-2 : ℤ) :=
    Decimal.toRat_ofDigits (by omega) (by decide)
  have net : exactNet centPerKilowattHour (some ⟨.ofDigits cents 2, centPerKilowattHour⟩) =
      cents * 10 ^ (-2 : ℤ) := by
    rw [exactNet, div_self ratio_centPerKilowattHour.2, mul_one, value]
  have product : 1 ≤ cents * tenths ∧ cents * tenths ≤ 1000 * 1000 :=
    ⟨Nat.mul_pos hcents.1 htenths.1, Nat.mul_le_mul hcents.2 htenths.2⟩
  have taxed : exactNet centPerKilowattHour (some ⟨.ofDigits cents 2, centPerKilowattHour⟩) *
      (1 + rate.magnitude) = (cents * (1000 + tenths) : ℕ) * 10 ^ (-5 : ℤ) := by
    rw [net, hrate]
    push_cast
    norm_num
    ring
  refine ⟨?_, ?_, ?_, ?_, fun _ => ?_, fun _ => ?_⟩
  · exact taxed
  · rintro given ⟨⟩
    exact ⟨true, .kilowattHour, by simp [MeasureUnit.wattHours], rfl⟩
  · rintro given ⟨⟩
    rw [value, digits]
    exact isShort_of_places cents 2 hcents.1 (by omega) (by omega) (by omega) rfl
  · rw [net, digits]
    exact isShort_of_places cents 2 hcents.1 (by omega) (by omega) (by omega) rfl
  · refine isShort_of_places (cents * tenths) 5 product.1 ?_ ?_ (by omega) ?_
    · rw [digits]
      omega
    · omega
    · rw [net, hrate]
      push_cast
      norm_num
      ring
  · rw [taxed, digits]
    refine isShort_of_places (cents * (1000 + tenths)) 5 ?_ ?_ ?_ (by omega) rfl
    all_goals rw [Nat.mul_add]
    all_goals omega

/-- The three hours have prices of a few hundred euros, in thousandths. -/
theorem Publication.exists_thousandths {point : PricePoint}
    (h : point ∈ Publication.threeHours.points) :
    ∃ n : ℕ, (1 ≤ n ∧ n ≤ 1000000) ∧ point.price.toRat = n * 10 ^ (-3 : ℤ) := by
  simp only [threeHours, List.mem_cons, List.not_mem_nil, or_false] at h
  rcases h with rfl | rfl | rfl
  · refine ⟨50000, by decide, ?_⟩
    rw [Decimal.toRat_ofDigits (by decide) (by decide)]
    norm_num
  · refine ⟨100490, by decide, ?_⟩
    rw [Decimal.toRat_ofDigits (by decide) (by decide)]
    norm_num
  · refine ⟨100490, by decide, ?_⟩
    rw [Decimal.toRat_ofDigits (by decide) (by decide)]
    norm_num

/-- Nothing is rounded on the way to the totals of three hours. -/
theorem Contract.staysShort_twoRates :
    (Contract.twoRates.exactFees centPerKilowattHour = 762975 * 10 ^ (-5 : ℤ) ∧
      Contract.twoRates.effectiveSellerRate.magnitude = 10 ^ (-1 : ℤ)) ∧
    Contract.twoRates.StaysShort "EUR" .threeHours (.pricePer "EUR" false .megawattHour)
      centPerKilowattHour := by
  have digits : Contract.twoRates.precision.digits = 16 := rfl
  have general : Contract.twoRates.generalRate.magnitude = (255 : ℕ) * 10 ^ (-3 : ℤ) :=
    Quantity.magnitude_percent (by decide)
  have seller : Contract.twoRates.effectiveSellerRate.magnitude = (100 : ℕ) * 10 ^ (-3 : ℤ) :=
    Quantity.magnitude_percent (by decide)
  have transfer := Fees.staysShort_of_cents 340 (by omega) (by omega) general
  have tax := Fees.staysShort_of_cents 225 (by omega) (by omega) general
  have margin := Fees.staysShort_of_cents 49 (by omega) (by omega) seller
  have both : Fees.exactPrice .twoRates centPerKilowattHour Contract.twoRates.transfer
      Contract.twoRates.generalRate + Fees.exactPrice .twoRates centPerKilowattHour
        Contract.twoRates.tax Contract.twoRates.generalRate = (709075 : ℕ) * 10 ^ (-5 : ℤ) := by
    refine (congrArg₂ (· + ·) transfer.1 tax.1).trans ?_
    norm_num
  have fees : Contract.twoRates.exactFees centPerKilowattHour = (762975 : ℕ) * 10 ^ (-5 : ℤ) := by
    refine (congrArg₂ (· + ·) both margin.1).trans ?_
    norm_num
  have spot : ∀ x : ℚ, exactSpot .twoRates (.pricePer "EUR" false .megawattHour)
      centPerKilowattHour x = x * 11 * 10 ^ (-2 : ℤ) := by
    intro x
    rw [exactSpot, ratio_centPerKilowattHour.1, seller]
    norm_num
    ring
  refine ⟨⟨by rw [fees]; norm_num, by rw [seller]; norm_num⟩, ?_⟩
  refine
    { few := digits.le
      sourceUnit := ⟨false, .megawattHour, by simp [MeasureUnit.wattHours], rfl⟩
      targetUnit := ⟨true, .kilowattHour, by simp [MeasureUnit.wattHours], rfl⟩
      generalRate := .inl rfl
      sellerRate := .inl rfl
      transfer := transfer.2
      tax := tax.2
      margin := margin.2
      both := ?_
      fees := ?_
      published := ?_
      net := ?_
      spotTax := ?_
      spot := ?_
      total := ?_ }
  · rw [both, digits]
    exact isShort_of_places 709075 5 (by omega) (by omega) (by omega) (by omega) rfl
  · rw [fees, digits]
    exact isShort_of_places 762975 5 (by omega) (by omega) (by omega) (by omega) rfl
  all_goals
    intro point h
    rw [digits]
    obtain ⟨n, hn, price⟩ := Publication.exists_thousandths h
  · exact isShort_of_places n 3 hn.1 (by omega) (by omega) (by omega) price
  · refine isShort_of_places n 4 hn.1 (by omega) (by omega) (by omega) ?_
    rw [price, ratio_centPerKilowattHour.1]
    norm_num
    ring
  · refine isShort_of_places n 5 hn.1 (by omega) (by omega) (by omega) ?_
    rw [price, ratio_centPerKilowattHour.1, seller]
    norm_num
    ring
  · refine isShort_of_places (11 * n) 5 (by omega) (by omega) (by omega)
      (by omega) ?_
    rw [spot, price]
    push_cast
    norm_num
    ring
  · refine isShort_of_places (762975 + 11 * n) 5 (by omega) (by omega) (by omega)
      (by omega) ?_
    rw [spot, price, fees]
    push_cast
    norm_num
    ring

/-- The second of three hours is published at 50 euros for a megawatt hour: five
cents for a kilowatt hour, half a cent of tax and the fees with theirs. -/
theorem Schedule.build_exact_threeHours : ∃ (schedule : Schedule) (slot : Slot),
    build .twoRates .threeHours = .ok schedule ∧ schedule.slots[1]? = some slot ∧
      slot.charge = 13.12975 := by
  obtain ⟨schedule, h⟩ := exists_threeHours
  have built := built_of_build h
  have length : schedule.slots.length = 3 := built.length_slots
  have second : schedule.slots[1]? = some schedule.slots[1] := List.getElem?_eq_getElem _
  have target : Contract.twoRates.targetUnit "EUR" = .ok centPerKilowattHour := rfl
  have unit : schedule.unit = centPerKilowattHour := Except.ok.inj (built.unit.symm.trans target)
  have point : (⟨2, .ofDigits 50 0⟩ : PricePoint) ∈ Publication.threeHours.points ∧ 2 = 1 + 1 := by
    decide
  obtain ⟨⟨fees, rate⟩, short⟩ := Contract.staysShort_twoRates
  have price : (Decimal.ofDigits 50 0).toRat = 50 := by
    rw [Decimal.toRat_ofDigits (by decide) (by decide)]
    norm_num
  have source : Publication.threeHours.unit = .ok (.pricePer "EUR" false .megawattHour) := rfl
  refine ⟨schedule, _, h, second, ?_⟩
  rw [build_exact h source (unit ▸ short) second point, unit, fees, Contract.exactSpot, rate,
    ratio_centPerKilowattHour.1, price]
  norm_num

end Tariff
