import Tariff.Proofs.Measure.Convertible
import Tariff.Proofs.Measure.Uncut
import Tariff.Proofs.Pricing.Exact
import Tariff.Proofs.Pricing.TaxInSum

/-!
# Equality of prices

Two prices are equal when their rates are and their amounts compare equal, for which the
amount on the right is told in the unit of the amount on the left.  Each price is equal to
itself.  Whether equality can be turned round or chained depends on what the amounts lose
when they are told in each other's units.

## Main definitions

* `Quantity.IsExactIn` — quantities that lose nothing in another unit

## Main statements

* `Quantity.isExactIn_of_short` — short prices lose nothing
* `TaxedPrice.agrees_iff` — what prices agree in when nothing is lost
* `TaxedPrice.agrees_equivalence` — agreement is reflexive, symmetric and transitive then
* `TaxedPrice.agrees_one_way` — agreement that holds in one direction only

## Design notes

An amount that loses nothing keeps its magnitude, and then equal amounts are amounts of
equal magnitude, which no longer depends on the side from which they are compared.  An
amount that has more digits than are kept is rounded when it is told in another unit, but
not when another amount is told in its own.
-/

namespace Tariff

/-! ## Ratios of units -/

namespace MeasureUnit

variable {unit : MeasureUnit}

/-- The ratio of a standard unit is above zero. -/
theorem IsStandard.ratio_pos (standard : unit.IsStandard) : 0 < unit.ratio := by
  obtain ⟨ratio, above, below⟩ := standard.ratio_eq
  rw [ratio]
  exact div_pos above below

end MeasureUnit

/-! ## Quantities that lose nothing -/

namespace Quantity

variable {q x y : Quantity} {unit : MeasureUnit} {p : Precision} {order : Ordering} {code : String}

/-- **A quantity loses nothing** in a commensurable unit when it can be told in that unit and has
the same magnitude there. -/
def IsExactIn (q : Quantity) (unit : MeasureUnit) (p : Precision) : Prop :=
  q.unit.Commensurable unit → ∃ told, q.convert unit p = .ok told ∧ told.magnitude = q.magnitude

theorem compare_eq_ok : x.compare y p = .ok order ↔
    x.dimension = y.dimension ∧ ∃ other, y.convert x.unit p = .ok ⟨other, x.unit⟩ ∧
      order = x.value.compare other := by
  simp only [Quantity.compare, Outcome.bind_eq_ok, Outcome.pure_eq_ok, valueIn_eq_ok,
    eq_comm (b := order)]
  constructor
  · rintro ⟨⟨⟩, dimension, rest⟩
    exact ⟨checkDimension_eq_ok.mp dimension, rest⟩
  · rintro ⟨dimension, rest⟩
    exact ⟨⟨⟩, checkDimension_eq_ok.mpr dimension, rest⟩

/-- **Quantities compare equal** when they are commensurable and of one magnitude, if the right
one loses nothing in the unit of the left one. -/
theorem compare_eq_iff (positive : 0 < x.unit.ratio) (exact : y.IsExactIn x.unit p) :
    x.compare y p = .ok .eq ↔
      y.unit.Commensurable x.unit ∧ x.magnitude = y.magnitude := by
  rw [compare_eq_ok]
  have equal : ∀ other : Decimal, .eq = x.value.compare other ↔ x.value.toRat = other.toRat := by
    intro other
    rw [← Decimal.sameValue_iff, Decimal.sameValue, beq_iff_eq, eq_comm]
  constructor
  · rintro ⟨-, other, converted, same⟩
    obtain ⟨conversion, converts, -⟩ := convert_eq_ok.mp converted
    have commensurable := MeasureUnit.commensurable_of_conversionTo converts
    obtain ⟨told, htold, magnitude⟩ := exact commensurable
    obtain rfl := Except.ok.inj (converted.symm.trans htold)
    refine ⟨commensurable, ?_⟩
    rw [← magnitude, Quantity.magnitude, Quantity.magnitude, (equal other).mp same]
  · rintro ⟨commensurable, same⟩
    obtain ⟨told, htold, magnitude⟩ := exact commensurable
    obtain ⟨_, -, other, -, rfl⟩ := convert_eq_ok.mp htold
    refine ⟨commensurable.1.symm, other, htold, (equal other).mpr ?_⟩
    rw [← magnitude] at same
    exact mul_right_cancel₀ positive.ne' same

/-- **Short prices lose nothing** in a unit in which they are short. -/
theorem isExactIn_of_short (few : p.digits ≤ 16) (hq : q.unit.IsPriceUnit code)
    (hunit : unit.IsPriceUnit code) (before : IsShort p.digits q.value.toRat)
    (after : IsShort p.digits (q.value.toRat * (q.unit.ratio / unit.ratio))) :
    q.IsExactIn unit p := by
  intro _
  obtain ⟨hundredth, source, hsource, sourceUnit⟩ := hq
  obtain ⟨part, target, htarget, targetUnit⟩ := hunit
  obtain ⟨conversion, converts, -⟩ := MeasureUnit.exists_conversion_pricePer code hundredth part
    (MeasureUnit.mem_energyUnits hsource) (MeasureUnit.mem_energyUnits htarget)
  obtain ⟨shift, shifts, ratio⟩ := MeasureUnit.shifts_pricePer hsource htarget converts
  rw [← sourceUnit, ← targetUnit] at converts ratio
  have nonzero : unit.ratio ≠ 0 := by
    intro zero
    rw [zero, div_zero] at ratio
    exact (zpow_ne_zero shift (by norm_num : (10 : ℚ) ≠ 0)) ratio.symm
  rw [ratio] at after
  obtain ⟨value, told⟩ :=
    Conversion.exists_apply_of_shifts shifts few (before.passes few) (after.passes few)
  refine ⟨⟨value, unit⟩, convert_eq_ok.mpr ⟨conversion, converts, value, told, rfl⟩, ?_⟩
  rw [magnitude, magnitude, Conversion.toRat_apply_of_shifts shifts few (before.passes few)
    (after.passes few) told, ← ratio, mul_assoc, div_mul_cancel₀ _ nonzero]

end Quantity

/-! ## Prices that agree -/

namespace TaxedPrice

variable {a b c : TaxedPrice} {x y z r s v : Quantity} {p : Precision}

/-- The amount of a price has the unit in which the price is given. -/
theorem unit_amount (h : a.amount p = .ok x) : x.unit = a.unit := by
  obtain ⟨rate, price | price⟩ := a
  · rw [← Except.ok.inj h]
    rfl
  · obtain ⟨fraction, -, h⟩ := amount_of_sum.mp h
    obtain ⟨_, -, _, -, converted⟩ := amountInSum_eq_ok.mp h
    obtain ⟨_, -, _, -, rfl⟩ := Quantity.convert_eq_ok.mp converted
    rfl

/-- **Prices agree** when their rates are equal and their amounts compare equal. -/
theorem agrees_eq_true_iff (hx : a.amount p = .ok x) (hr : a.rate p = .ok r)
    (hy : b.amount p = .ok y) (hs : b.rate p = .ok s) :
    a.agrees b p = true ↔ r.value.toRat = s.value.toRat ∧ x.compare y p = .ok .eq := by
  have verdict : a.agrees b p = match x.compare y p with
      | .ok order => r.value.sameValue s.value && order == .eq
      | .error _ => false := by
    rw [agrees, hx, hr, hy, hs]
    simp only [bind, Except.bind]
    cases x.compare y p <;> rfl
  rw [verdict, ← Decimal.sameValue_iff]
  cases x.compare y p <;> simp

/-- **Prices whose amounts lose nothing** agree when their rates are equal and their amounts are
commensurable and of one magnitude. -/
theorem agrees_iff (standard : a.unit.IsStandard) (hx : a.amount p = .ok x) (hr : a.rate p = .ok r)
    (hy : b.amount p = .ok y) (hs : b.rate p = .ok s) (exact : y.IsExactIn x.unit p) :
    a.agrees b p = true ↔ r.value.toRat = s.value.toRat ∧
      y.unit.Commensurable x.unit ∧ x.magnitude = y.magnitude := by
  rw [← unit_amount hx] at standard
  rw [agrees_eq_true_iff hx hr hy hs, Quantity.compare_eq_iff standard.ratio_pos exact]

/-- **Agreement of prices.**  A price that can be calculated agrees with itself.  Two prices agree
in both directions or in none, if neither amount loses anything in the unit of the other one.
Agreement is passed on from one price to the next, if no amount loses anything in the unit of
those before it. -/
theorem agrees_equivalence (ha : a.unit.IsStandard) (hb : b.unit.IsStandard)
    (hx : a.amount p = .ok x) (hr : a.rate p = .ok r) (hy : b.amount p = .ok y)
    (hs : b.rate p = .ok s) (hz : c.amount p = .ok z) (hv : c.rate p = .ok v) :
    a.agrees a p = true ∧
    (x.IsExactIn y.unit p → y.IsExactIn x.unit p →
      a.agrees b p = true → b.agrees a p = true) ∧
    (y.IsExactIn x.unit p → z.IsExactIn y.unit p → z.IsExactIn x.unit p →
      a.agrees b p = true → b.agrees c p = true → a.agrees c p = true) := by
  refine ⟨?_, ?_, ?_⟩
  · have self : x.IsExactIn x.unit p := fun _ => ⟨x, x.convert_self p, rfl⟩
    exact (agrees_iff ha hx hr hx hr self).mpr ⟨rfl, ⟨rfl, fun _ => rfl⟩, rfl⟩
  · intro there back agree
    obtain ⟨rates, units, amounts⟩ := (agrees_iff ha hx hr hy hs back).mp agree
    exact (agrees_iff hb hy hs hx hr there).mpr ⟨rates.symm, units.symm, amounts.symm⟩
  · intro first second third agree next
    obtain ⟨rates, units, amounts⟩ := (agrees_iff ha hx hr hy hs first).mp agree
    obtain ⟨rates', units', amounts'⟩ := (agrees_iff hb hy hs hz hv second).mp next
    exact (agrees_iff ha hx hr hz hv third).mpr
      ⟨rates.trans rates', units'.trans units, amounts.trans amounts'⟩

/-! ## Cents and euros -/

section CentsAndEuros

open MeasureUnit

/-- A price of 3.4 cents for a kilowatt hour, without its tax. -/
def inCents : TaxedPrice :=
  ⟨⟨.ofDigits 24 0, .percent⟩, .amount ⟨.ofDigits 34 1, pricePer "EUR" true kilowattHour⟩⟩

/-- The same price in euros for a megawatt hour. -/
def inEuros : TaxedPrice :=
  ⟨⟨.ofDigits 24 2, .one⟩, .amount ⟨.ofDigits 34 0, pricePer "EUR" false megawattHour⟩⟩

/-- The same price with its tax. -/
def withTax : TaxedPrice :=
  ⟨⟨.ofDigits 24 0, .percent⟩, .sum ⟨.ofDigits 4216 2, pricePer "EUR" false megawattHour⟩⟩

theorem isStandard_pricePer_cent : (pricePer "EUR" true kilowattHour).IsStandard :=
  .divide (.given ⟨"c", rfl⟩) (.given ⟨"kWh", rfl⟩)

theorem isStandard_pricePer_euro : (pricePer "EUR" false megawattHour).IsStandard :=
  .divide (.given ⟨"EUR", rfl⟩) (.given ⟨"MWh", rfl⟩)

/-- A price in cents for a kilowatt hour is ten times that in euros for a megawatt hour. -/
theorem ratio_cent_div_euro :
    (pricePer "EUR" true kilowattHour).ratio / (pricePer "EUR" false megawattHour).ratio = 10 := by
  decide +kernel

/-- Their amounts lose nothing in either unit, so that each of the three equals the others. -/
theorem agrees_equivalence_cents : inCents.equal inCents = true ∧
    inCents.equal inEuros = true ∧ inEuros.equal inCents = true ∧
      inEuros.equal withTax = true ∧ inCents.equal withTax = true := by
  have amount : withTax.amount .sixteen =
      .ok ⟨.ofDigits 3400000000000000 14, pricePer "EUR" false megawattHour⟩ := rfl
  have rate : withTax.rate .sixteen = .ok ⟨.ofDigits 2400000000000000 16, .one⟩ := rfl
  have rateCents : inCents.rate .sixteen = .ok ⟨.ofDigits 2400000000000000 16, .one⟩ := rfl
  have cents : (pricePer "EUR" true kilowattHour).IsPriceUnit "EUR" :=
    ⟨true, kilowattHour, by simp [wattHours], rfl⟩
  have euros : (pricePer "EUR" false megawattHour).IsPriceUnit "EUR" :=
    ⟨false, megawattHour, by simp [wattHours], rfl⟩
  have inverse : (pricePer "EUR" false megawattHour).ratio / (pricePer "EUR" true kilowattHour).ratio =
      1 / 10 := by
    rw [← inv_div, ratio_cent_div_euro, one_div]
  have short : IsShort 16 (34 / 10) ∧ IsShort 16 34 :=
    ⟨isShort_of_places 34 1 (by decide) (by decide) (by decide) (by decide) (by norm_num),
      isShort_of_places 34 0 (by decide) (by decide) (by decide) (by decide) (by norm_num)⟩
  have first : (Decimal.ofDigits 34 1).toRat = 34 / 10 := by decide +kernel
  have second : (Decimal.ofDigits 34 0).toRat = 34 := by decide +kernel
  have third : (Decimal.ofDigits 3400000000000000 14).toRat = 34 := by decide +kernel
  have centsInEuros : Quantity.IsExactIn ⟨.ofDigits 34 1, pricePer "EUR" true kilowattHour⟩
      (pricePer "EUR" false megawattHour) .sixteen := by
    refine Quantity.isExactIn_of_short (by decide) cents euros (first ▸ short.1) ?_
    rw [first, ratio_cent_div_euro, div_mul_cancel₀ _ (by norm_num)]
    exact short.2
  have eurosInCents : ∀ value : Decimal, value.toRat = 34 →
      Quantity.IsExactIn ⟨value, pricePer "EUR" false megawattHour⟩
        (pricePer "EUR" true kilowattHour) .sixteen := by
    intro value eq
    refine Quantity.isExactIn_of_short (by decide) euros cents (eq ▸ short.2) ?_
    rw [eq, inverse, mul_one_div]
    exact short.1
  have eurosInEuros : Quantity.IsExactIn
      ⟨.ofDigits 3400000000000000 14, pricePer "EUR" false megawattHour⟩
      (pricePer "EUR" false megawattHour) .sixteen :=
    fun _ => ⟨_, Quantity.convert_self _ _, rfl⟩
  have agree : inCents.agrees inEuros .sixteen = true := by decide +kernel
  have next : inEuros.agrees withTax .sixteen = true := by decide +kernel
  obtain ⟨self, symmetric, transitive⟩ := agrees_equivalence isStandard_pricePer_cent
    isStandard_pricePer_euro (a := inCents) (b := inEuros) (c := withTax) (p := .sixteen)
    rfl rateCents rfl rfl amount rate
  exact ⟨self, agree, symmetric centsInEuros (eurosInCents _ second) agree, next,
    transitive (eurosInCents _ second) eurosInEuros (eurosInCents _ third) agree next⟩

/-- A tenth of a cent for a kilowatt hour. -/
def tenthOfCent : TaxedPrice :=
  ⟨⟨.ofDigits 24 0, .percent⟩, .amount ⟨.ofDigits 1 1, pricePer "EUR" true kilowattHour⟩⟩

/-- A euro for a megawatt hour and a little more, in eighteen digits. -/
def overOneEuro : TaxedPrice :=
  ⟨⟨.ofDigits 24 0, .percent⟩,
    .amount ⟨.ofDigits 100000000000000001 17, pricePer "EUR" false megawattHour⟩⟩

/-- **Agreement in one direction.**  Of eighteen digits only sixteen are left in cents for a
kilowatt hour, but all of them count in euros for a megawatt hour. -/
theorem agrees_one_way : tenthOfCent.unit.IsStandard ∧ overOneEuro.unit.IsStandard ∧
    (∃ x y r s, tenthOfCent.amount .sixteen = .ok x ∧ overOneEuro.amount .sixteen = .ok y ∧
      tenthOfCent.rate .sixteen = .ok r ∧ overOneEuro.rate .sixteen = .ok s) ∧
    tenthOfCent.equal overOneEuro = true ∧ overOneEuro.equal tenthOfCent = false := by
  have rate : tenthOfCent.rate .sixteen = .ok ⟨.ofDigits 2400000000000000 16, .one⟩ := rfl
  exact ⟨isStandard_pricePer_cent, isStandard_pricePer_euro,
    ⟨_, _, _, _, rfl, rfl, rate, rate⟩, by decide +kernel, by decide +kernel⟩

end CentsAndEuros

end TaxedPrice

end Tariff
