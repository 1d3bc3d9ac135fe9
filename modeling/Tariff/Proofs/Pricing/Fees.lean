import Tariff.Pricing.Schedule
import Tariff.Proofs.Pricing.TaxedPrice

/-!
# Rates and fees of a contract

## Main definitions

* `Fees.IsPrice` — a fee of a contract, told in the unit of the schedule

## Main statements

* `Contract.checkRate_of_validate` — the rates of a contract that is in order
* `Fees.price_eq_ok`, `Fees.ofContract_eq_ok` — the fees of a contract
* `Fees.toRat_sum` — all fees together on numbers
-/

namespace Tariff

namespace Contract

variable {c : Contract} {name : String} {fee rate : Quantity}

/-- Contracts ask of a rate what prices with tax ask of it. -/
theorem checkRate_eq_ok : checkRate name rate = .ok ⟨⟩ ↔ TaxedPrice.checkRate rate = .ok ⟨⟩ := by
  rw [checkRate, TaxedPrice.checkRate_eq_ok]
  cases rate.isDimensionless <;> cases rate.isNegative <;> simp

/-- **Both rates** of a contract that is in order are rates of tax. -/
theorem checkRate_of_validate (h : c.validate = .ok ⟨⟩) :
    TaxedPrice.checkRate c.generalRate = .ok ⟨⟩ ∧
      TaxedPrice.checkRate c.effectiveSellerRate = .ok ⟨⟩ := by
  obtain ⟨⟨⟩, general, rest⟩ := Outcome.bind_eq_ok.mp h
  obtain ⟨⟨⟩, seller, -⟩ := Outcome.bind_eq_ok.mp rest
  exact ⟨checkRate_eq_ok.mp general, checkRate_eq_ok.mp seller⟩

/-- The fees that are stated are transfer, energy tax and margin. -/
theorem mem_statedFees : (name, fee) ∈ c.statedFees ↔
    name = "transfer" ∧ c.transfer = some fee ∨ name = "tax" ∧ c.tax = some fee ∨
      name = "margin" ∧ c.margin = some fee := by
  simp only [statedFees, fees, List.mem_filterMap, List.mem_cons, List.not_mem_nil, or_false,
    Option.map_eq_some_iff, Prod.mk.injEq]
  constructor
  · rintro ⟨⟨label, stated⟩, among, given, rfl, rfl, rfl⟩
    simpa only [Prod.mk.injEq, eq_comm] using among
  · rintro (⟨rfl, stated⟩ | ⟨rfl, stated⟩ | ⟨rfl, stated⟩)
    · exact ⟨("transfer", c.transfer), .inl rfl, fee, stated, rfl, rfl⟩
    · exact ⟨("tax", c.tax), .inr (.inl rfl), fee, stated, rfl, rfl⟩
    · exact ⟨("margin", c.margin), .inr (.inr rfl), fee, stated, rfl, rfl⟩

end Contract

namespace Fees

variable {c : Contract} {target : MeasureUnit} {fee : Option Quantity} {rate : Quantity}
  {t : TaxedPrice} {fees : Fees} {p : Precision} {result : Quantity}

/-- Whether a quantity is a fee in the target unit; a fee that is not stated is
nothing. -/
def IsGiven (p : Precision) (target : MeasureUnit) : Option Quantity → Quantity → Prop
  | some fee, given => fee.convert target p = .ok given
  | none, given => given = .zero target

/-- **A fee of a contract** has the rate of its kind and is given with tax or
without, as the contract says. -/
def IsPrice (c : Contract) (target : MeasureUnit) (fee : Option Quantity) (rate : Quantity)
    (t : TaxedPrice) : Prop :=
  ∃ given, IsGiven c.precision target fee given ∧
    t = ⟨rate, if c.feesIncludeTax then .sum given else .amount given⟩

theorem price_eq_ok (h : price c target fee rate = .ok t) : IsPrice c target fee rate t := by
  cases fee with
  | none => exact ⟨.zero target, rfl, (TaxedPrice.of_eq_ok.mp h).2⟩
  | some fee =>
      obtain ⟨given, hgiven, h⟩ := Outcome.bind_eq_ok.mp h
      exact ⟨given, Outcome.ofMeasured_eq_ok.mp hgiven, (TaxedPrice.of_eq_ok.mp h).2⟩

/-- A fee is told in the target unit. -/
theorem IsPrice.unit (h : IsPrice c target fee rate t) : t.unit = target := by
  obtain ⟨given, hgiven, rfl⟩ := h
  have unit : given.unit = target := by
    cases fee with
    | none => rw [hgiven, Quantity.zero]
    | some fee =>
        obtain ⟨_, -, _, -, rfl⟩ := Quantity.convert_eq_ok.mp hgiven
        rfl
  rw [TaxedPrice.unit]
  split <;> exact unit

/-- It has the rate of its kind. -/
theorem IsPrice.taxRate (h : IsPrice c target fee rate t) : t.taxRate = rate := by
  obtain ⟨_, -, rfl⟩ := h
  rfl

/-- **The fees of a contract** are its three fees at their rates. -/
theorem ofContract_eq_ok (h : ofContract c target = .ok fees) :
    IsPrice c target c.transfer c.generalRate fees.transfer ∧
      IsPrice c target c.tax c.generalRate fees.tax ∧
        IsPrice c target c.margin c.effectiveSellerRate fees.margin := by
  obtain ⟨transfer, htransfer, h⟩ := Outcome.bind_eq_ok.mp h
  obtain ⟨tax, htax, h⟩ := Outcome.bind_eq_ok.mp h
  obtain ⟨margin, hmargin, h⟩ := Outcome.bind_eq_ok.mp h
  obtain rfl := Outcome.pure_eq_ok.mp h
  exact ⟨price_eq_ok htransfer, price_eq_ok htax, price_eq_ok hmargin⟩

/-- All fees are told in one unit. -/
theorem unit_ofContract (h : ofContract c target = .ok fees) :
    fees.transfer.unit = target ∧ fees.tax.unit = target ∧ fees.margin.unit = target := by
  obtain ⟨transfer, tax, margin⟩ := ofContract_eq_ok h
  exact ⟨transfer.unit, tax.unit, margin.unit⟩

theorem sum_eq_ok : fees.sum p = .ok result ↔
    ∃ transfer, fees.transfer.sum p = .ok transfer ∧ ∃ tax, fees.tax.sum p = .ok tax ∧
      ∃ both, transfer.add tax p = .ok both ∧ ∃ margin, fees.margin.sum p = .ok margin ∧
        both.add margin p = .ok result := by
  simp only [sum, Outcome.bind_eq_ok, Outcome.ofMeasured_eq_ok]

/-- **All fees together on numbers**, for fees that are told in one unit. -/
theorem toRat_sum (units : fees.transfer.unit = target ∧ fees.tax.unit = target ∧
    fees.margin.unit = target) (h : fees.sum p = .ok result) :
    result.unit = target ∧ ∃ transfer tax margin, fees.transfer.sum p = .ok transfer ∧
      fees.tax.sum p = .ok tax ∧ fees.margin.sum p = .ok margin ∧
        result.value.toRat =
          p.keep (p.keep (transfer.value.toRat + tax.value.toRat) + margin.value.toRat) := by
  obtain ⟨transfer, htransfer, tax, htax, both, hboth, margin, hmargin, h⟩ := sum_eq_ok.mp h
  have transferUnit := (TaxedPrice.unit_sum htransfer).trans units.1
  have taxUnit := (TaxedPrice.unit_sum htax).trans units.2.1
  have marginUnit := (TaxedPrice.unit_sum hmargin).trans units.2.2
  obtain ⟨bothUnit, bothValue⟩ := Quantity.toRat_add (taxUnit.trans transferUnit.symm) hboth
  have sameUnit : both.unit = target := bothUnit.trans transferUnit
  obtain ⟨resultUnit, resultValue⟩ := Quantity.toRat_add (marginUnit.trans sameUnit.symm) h
  refine ⟨resultUnit.trans sameUnit, transfer, tax, margin, htransfer, htax, hmargin, ?_⟩
  rw [resultValue, bothValue]

end Fees

end Tariff
