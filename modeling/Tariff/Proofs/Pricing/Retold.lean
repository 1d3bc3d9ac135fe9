import Tariff.Proofs.Pricing.Equality

/-!
# Prices told in another unit and back

Between prices of one currency for watt hours there is a power of ten.  A price of few digits
is told in any of these units without loss, and told in its own unit again it is the price that
it was.

## Main definitions

* `MeasureUnit.IsMoney` — a currency of a given code, or its hundredth

## Main statements

* `MeasureUnit.IsMoney.isPriceUnit` — such money for a watt hour is a unit of prices
* `Quantity.exists_convert_of_short` — a short price is told in another unit
* `Quantity.convert_back_of_short` — and told back

## Design notes

How many digits a price has does not depend on the power of ten, but its size does: that it is
neither tiny nor huge is asked for in both units.
-/

namespace Tariff

namespace MeasureUnit

variable {code : String} {money energy : MeasureUnit}

/-- **Money**: the currency with a given code, or its hundredth. -/
def IsMoney (code : String) (unit : MeasureUnit) : Prop :=
  ∃ root, currency code = .ok root ∧ (unit = root ∨ root.subunit = .ok unit)

/-- Money is the root unit of its currency or a hundredth of it. -/
theorem IsMoney.exists_eq_money (h : money.IsMoney code) :
    ∃ hundredth, money = .money (String.ofList (Text.trim code.toList)) hundredth := by
  obtain ⟨root, known, part⟩ := h
  obtain rfl := currency_eq_ok known
  rcases part with rfl | part
  · exact ⟨false, rfl⟩
  · rw [subunit_money] at part
    exact ⟨true, (Except.ok.inj part).symm⟩

/-- **Money for a watt hour** or one of its multiples is a unit of prices. -/
theorem IsMoney.isPriceUnit (h : money.IsMoney code) (metered : energy ∈ wattHours) :
    (money.divide energy).IsPriceUnit (String.ofList (Text.trim code.toList)) := by
  obtain ⟨hundredth, rfl⟩ := h.exists_eq_money
  exact ⟨hundredth, energy, metered, rfl⟩

/-- Units of prices are told in each other by a power of ten. -/
theorem IsPriceUnit.exists_shift {source target : MeasureUnit} (hs : source.IsPriceUnit code)
    (ht : target.IsPriceUnit code) : source.Commensurable target ∧ target.ratio ≠ 0 ∧
      ∃ shift : ℤ, source.ratio / target.ratio = 10 ^ shift := by
  obtain ⟨hundredth, metered, hmetered, rfl⟩ := hs
  obtain ⟨part, other, hother, rfl⟩ := ht
  obtain ⟨conversion, converts, -⟩ := exists_conversion_pricePer code hundredth part
    (mem_energyUnits hmetered) (mem_energyUnits hother)
  obtain ⟨shift, -, ratio⟩ := shifts_pricePer hmetered hother converts
  refine ⟨commensurable_of_conversionTo converts, ?_, shift, ratio⟩
  intro zero
  rw [zero, div_zero] at ratio
  exact zpow_ne_zero shift (by norm_num) ratio.symm

end MeasureUnit

/-- A power of ten takes no digits away. -/
theorem IsShort.mul_zpow {digits : ℕ} {x : ℚ} {shift : ℤ} (short : IsShort digits x)
    (size : x = 0 ∨ (10 : ℚ) ^ (-8 : ℤ) ≤ |x * 10 ^ shift| ∧ |x * 10 ^ shift| ≤ 10 ^ (12 : ℤ)) :
    IsShort digits (x * 10 ^ shift) := by
  obtain ⟨⟨n, e, eq, few⟩, -⟩ := short
  refine ⟨⟨n, e + shift, ?_, few⟩, size.imp_left ?_⟩
  · rw [eq, zpow_add₀ (by norm_num), mul_assoc]
  · rintro rfl
    exact zero_mul _

namespace Quantity

variable {p : Precision} {code : String} {value : Decimal} {source target : MeasureUnit}

/-- **A short price is told in another unit**, without loss. -/
theorem exists_convert_of_short (few : p.digits ≤ 16) (hs : source.IsPriceUnit code)
    (ht : target.IsPriceUnit code) (before : IsShort p.digits value.toRat)
    (after : IsShort p.digits (value.toRat * (source.ratio / target.ratio))) :
    ∃ told, convert ⟨value, source⟩ target p = .ok ⟨told, target⟩ ∧
      told.toRat = value.toRat * (source.ratio / target.ratio) := by
  obtain ⟨commensurable, nonzero, -⟩ := hs.exists_shift ht
  have exact : IsExactIn ⟨value, source⟩ target p := isExactIn_of_short few hs ht before after
  obtain ⟨told, converted, magnitude⟩ := exact commensurable
  obtain ⟨_, -, other, -, rfl⟩ := convert_eq_ok.mp converted
  refine ⟨other, converted, ?_⟩
  rw [← mul_div_assoc, eq_div_iff nonzero]
  exact magnitude

variable {money other : MeasureUnit}

/-- **A short price is told in another unit and told back.**  Between money of one currency for
watt hours and their multiples there is a power of ten, by which a price of few digits is moved,
and moved back again. -/
theorem convert_back_of_short (hmoney : money.IsMoney code) (hother : other.IsMoney code)
    (hs : source ∈ MeasureUnit.wattHours) (ht : target ∈ MeasureUnit.wattHours)
    (few : p.digits ≤ 16) (short : IsShort p.digits value.toRat) :
    ∃ shift : ℤ, (money.divide source).ratio / (other.divide target).ratio = 10 ^ shift ∧
      (value.toRat = 0 ∨ (10 : ℚ) ^ (-8 : ℤ) ≤ |value.toRat * 10 ^ shift| ∧
          |value.toRat * 10 ^ shift| ≤ 10 ^ (12 : ℤ) →
        ∃ told, convert ⟨value, money.divide source⟩ (other.divide target) p =
            .ok ⟨told, other.divide target⟩ ∧ told.toRat = value.toRat * 10 ^ shift ∧
          ∃ back, convert ⟨told, other.divide target⟩ (money.divide source) p =
            .ok ⟨back, money.divide source⟩ ∧ back.toRat = value.toRat) := by
  have here := hmoney.isPriceUnit hs
  have there := hother.isPriceUnit ht
  obtain ⟨-, -, shift, ratio⟩ := here.exists_shift there
  refine ⟨shift, ratio, fun size => ?_⟩
  have after := short.mul_zpow size
  obtain ⟨told, converted, moved⟩ :=
    exists_convert_of_short few here there short (ratio ▸ after)
  rw [ratio] at moved
  refine ⟨told, converted, moved, ?_⟩
  have inverse : told.toRat * ((other.divide target).ratio / (money.divide source).ratio) =
      value.toRat := by
    rw [← inv_div, ratio, moved, mul_assoc, mul_inv_cancel₀ (by positivity), mul_one]
  have shortBack : IsShort p.digits
      (told.toRat * ((other.divide target).ratio / (money.divide source).ratio)) := inverse ▸ short
  obtain ⟨back, again, same⟩ := exists_convert_of_short few there here (moved ▸ after) shortBack
  exact ⟨back, again, same.trans inverse⟩

/-- 3.4 cents for a kilowatt hour are 34 euros for a megawatt hour, and these are 3.4 cents for a
kilowatt hour. -/
theorem convert_back_of_short_cents : ∃ cent euro, MeasureUnit.currency "EUR" = .ok euro ∧
    euro.subunit = .ok cent ∧ ∃ told, convert ⟨.ofDigits 34 1, cent.divide .kilowattHour⟩
        (euro.divide .megawattHour) .sixteen = .ok ⟨told, euro.divide .megawattHour⟩ ∧
      told.toRat = 34 ∧ ∃ back, convert ⟨told, euro.divide .megawattHour⟩
        (cent.divide .kilowattHour) .sixteen = .ok ⟨back, cent.divide .kilowattHour⟩ ∧
      back.toRat = 34 / 10 := by
  have value : (Decimal.ofDigits 34 1).toRat = 34 / 10 := by decide +kernel
  have short : IsShort Precision.sixteen.digits (Decimal.ofDigits 34 1).toRat := by
    rw [value]
    exact isShort_of_places 34 1 (by decide) (by decide) (by decide) (by decide) (by norm_num)
  have cents : (MeasureUnit.money "EUR" true).IsMoney "EUR" := ⟨_, rfl, .inr rfl⟩
  have euros : (MeasureUnit.money "EUR" false).IsMoney "EUR" := ⟨_, rfl, .inl rfl⟩
  have kilowatts : MeasureUnit.kilowattHour ∈ MeasureUnit.wattHours := by
    simp [MeasureUnit.wattHours]
  have megawatts : MeasureUnit.megawattHour ∈ MeasureUnit.wattHours := by
    simp [MeasureUnit.wattHours]
  obtain ⟨shift, ratio, told⟩ :=
    convert_back_of_short cents euros kilowatts megawatts (by decide) short
  have ten : (10 : ℚ) ^ shift = 10 := ratio.symm.trans TaxedPrice.ratio_cent_div_euro
  rw [value, ten] at told
  obtain ⟨result, converted, moved, back⟩ := told (by norm_num)
  exact ⟨_, _, rfl, rfl, result, converted, by rw [moved]; norm_num, back⟩

end Quantity

end Tariff
