import Tariff.Proofs.Pricing.Queries
import Tariff.Proofs.Pricing.Sufficiency

/-!
# The general rate and prices that hold their tax

The general rate of tax is that of transfer and energy tax.  Where fees are given with their
tax, and the seller has a rate of his own, no price depends on it.  Two runs of a build with
two general rates are followed step by step.

## Main definitions

* `Contract.withGeneralRate`, `Schedule.withGeneralRate` — another general rate in a contract,
  and in the fees of a schedule

## Main statements

* `Fees.ofContract_withGeneralRate` — the fees differ in the rate that is told with them
* `Fees.sum_withGeneralRate` — their sum does not depend on that rate
* `Schedule.build_withGeneralRate` — neither does any price, nor any error

## Design notes

The rate is handed on with the fees and shown with them, so that the schedules are not the
same.  All that differs is where it is shown: each step of one run is that of the other, with
the rate replaced in its result.  A rate is only looked at to see that it is a plain number and
not negative; whether it can be told as a fraction does not matter.
-/

namespace Tariff

/-! ## Another rate -/

/-- The contract with another general rate. -/
def Contract.withGeneralRate (rate : Quantity) (c : Contract) : Contract :=
  { c with generalRate := rate }

/-- A price with another rate told with it. -/
def TaxedPrice.withRate (rate : Quantity) (t : TaxedPrice) : TaxedPrice :=
  { t with taxRate := rate }

/-- Fees with another general rate told with them. -/
def Fees.withGeneralRate (rate : Quantity) (fees : Fees) : Fees :=
  { fees with transfer := fees.transfer.withRate rate, tax := fees.tax.withRate rate }

/-- A schedule with another general rate told with its fees. -/
def Schedule.withGeneralRate (rate : Quantity) (schedule : Schedule) : Schedule :=
  { schedule with fees := schedule.fees.withGeneralRate rate }

variable {c : Contract} {target : MeasureUnit} {fee : Option Quantity} {rate other : Quantity}

/-! ## Fees -/

namespace Fees

/-- **A fee at another rate** is the same fee with that rate told with it, if both are rates. -/
theorem price_withGeneralRate (check : TaxedPrice.checkRate other = .ok ⟨⟩)
    (check' : TaxedPrice.checkRate rate = .ok ⟨⟩) :
    price (c.withGeneralRate rate) target fee rate =
      TaxedPrice.withRate rate <$> price c target fee other := by
  have taxed : ∀ basis, TaxedPrice.of basis rate =
      TaxedPrice.withRate rate <$> TaxedPrice.of basis other := by
    intro basis
    rw [TaxedPrice.of, TaxedPrice.of, check, check']
    rfl
  cases fee with
  | none => exact taxed _
  | some fee =>
      rw [price, price, map_bind]
      exact bind_congr fun given => taxed _

/-- **The fees of a contract** with another general rate are the same fees, told with that rate. -/
theorem ofContract_withGeneralRate (check : TaxedPrice.checkRate c.generalRate = .ok ⟨⟩)
    (check' : TaxedPrice.checkRate rate = .ok ⟨⟩) {seller : Quantity}
    (own : c.sellerRate = some seller) :
    ofContract (c.withGeneralRate rate) target = withGeneralRate rate <$> ofContract c target := by
  have sellers : (c.withGeneralRate rate).effectiveSellerRate = c.effectiveSellerRate := by
    rw [Contract.effectiveSellerRate, Contract.effectiveSellerRate, own,
      show (c.withGeneralRate rate).sellerRate = some seller from own]
    rfl
  have fees : ∀ fee, price (c.withGeneralRate rate) target fee rate =
      TaxedPrice.withRate rate <$> price c target fee c.generalRate :=
    fun fee => price_withGeneralRate check check'
  have margin : ∀ fee rate', price (c.withGeneralRate rate) target fee rate' =
      price c target fee rate' := fun _ _ => rfl
  rw [ofContract, ofContract, show (c.withGeneralRate rate).generalRate = rate from rfl, sellers,
    fees, fees, margin]
  simp only [map_bind, bind_map_left]
  rfl

/-- **All fees together** do not depend on a rate that they hold already. -/
theorem sum_withGeneralRate {fees : Fees} (included : c.feesIncludeTax = true)
    (h : ofContract c target = .ok fees) (p : Precision) :
    (fees.withGeneralRate rate).sum p = fees.sum p := by
  have given : ∀ {t : TaxedPrice} {fee : Option Quantity} {other : Quantity},
      IsPrice c target fee other t → (t.withRate rate).sum p = t.sum p := by
    rintro t fee other ⟨price, -, rfl⟩
    rw [if_pos included]
    rfl
  obtain ⟨transfer, tax, -⟩ := ofContract_eq_ok h
  simp only [sum, withGeneralRate, given transfer, given tax]

end Fees

/-! ## Schedules -/

/-- The two rates, with fees that hold their tax. -/
def Contract.twoRatesIncluded : Contract :=
  { Contract.twoRates with feesIncludeTax := true }

namespace Schedule

variable {s : Publication} {schedule : Schedule} {seller : Quantity}

/-- **The schedule of priced points** does not depend on the rates that are told with fees. -/
theorem ofPoints_withGeneralRate (fees : Fees) (points : List PricedPoint) :
    ofPoints (c.withGeneralRate rate) s target (fees.withGeneralRate rate) points =
      withGeneralRate rate <$> ofPoints c s target fees points := by
  unfold ofPoints
  simp only [map_bind]
  rfl

/-- **A build with another general rate** is the same build, with that rate told in its result. -/
theorem build_eq_map (valid : c.validate = .ok ⟨⟩)
    (valid' : (c.withGeneralRate rate).validate = .ok ⟨⟩) (included : c.feesIncludeTax = true)
    (own : c.sellerRate = some seller) (s : Publication) :
    build (c.withGeneralRate rate) s = withGeneralRate rate <$> build c s := by
  have check := (Contract.checkRate_of_validate valid).1
  have check' : TaxedPrice.checkRate rate = .ok ⟨⟩ := (Contract.checkRate_of_validate valid').1
  have points : PricedPoint.ofPoint (c.withGeneralRate rate) = PricedPoint.ofPoint c := by
    funext target conversion fees point
    simp only [PricedPoint.ofPoint, Contract.effectiveSellerRate, Contract.withGeneralRate, own,
      Option.getD_some]
  have validated : ∀ {γ : Type} (f : PUnit → Priced γ),
      ((c.withGeneralRate rate).validate >>= f) = c.validate >>= f := by
    intro γ f
    rw [valid, valid']
  rw [build, build, validated, points]
  simp only [map_bind]
  -- up to the fees nothing depends on the rate
  refine bind_congr fun _ => bind_congr fun _ => bind_congr fun target => bind_congr fun _ => ?_
  refine bind_congr fun source => bind_congr fun conversion => ?_
  rw [Fees.ofContract_withGeneralRate check check' own, bind_map_left]
  cases h : Fees.ofContract c target with
  | error e => rfl
  | ok fees =>
      change ((fees.withGeneralRate rate).sum c.precision >>= _) = fees.sum c.precision >>= _
      rw [Fees.sum_withGeneralRate included h]
      refine bind_congr fun feeSum => bind_congr fun points => ?_
      exact ofPoints_withGeneralRate fees points

/-- **The general rate does not show in prices that hold their tax.**  Of two contracts in order
that differ in the general rate only, hold the tax in their fees and state a rate of the seller,
building fails for both with one error, or makes schedules with the same slots and statistics.
The schedules differ in the rate that is told with two of their fees. -/
theorem build_withGeneralRate (valid : c.validate = .ok ⟨⟩)
    (valid' : (c.withGeneralRate rate).validate = .ok ⟨⟩) (included : c.feesIncludeTax = true)
    (own : c.sellerRate = some seller) (s : Publication) :
    (∀ e, build (c.withGeneralRate rate) s = .error e ↔ build c s = .error e) ∧
    ((∃ schedule, build (c.withGeneralRate rate) s = .ok schedule) ↔
      ∃ schedule, build c s = .ok schedule) ∧
    ∀ schedule other, build c s = .ok schedule → build (c.withGeneralRate rate) s = .ok other →
      other.slots = schedule.slots ∧ other.statistics = schedule.statistics ∧
        other = schedule.withGeneralRate rate := by
  rw [build_eq_map valid valid' included own]
  cases build c s with
  | error e => exact ⟨fun _ => .rfl, by simp, by simp⟩
  | ok schedule =>
      refine ⟨by simp, by simp, ?_⟩
      intro _ other here there
      obtain rfl := Except.ok.inj here
      obtain rfl := Except.ok.inj there
      exact ⟨rfl, rfl, rfl⟩

/-- A rate of no crowns for a euro, which is no fraction, changes no price of three hours. -/
theorem build_withGeneralRate_threeHours : ∃ schedule other,
    build .twoRatesIncluded .threeHours = .ok schedule ∧
      build (Contract.twoRatesIncluded.withGeneralRate (.zero euroOverKrona)) .threeHours = .ok other ∧
        other.slots = schedule.slots ∧ other.statistics = schedule.statistics := by
  have valid : Contract.twoRatesIncluded.validate = .ok ⟨⟩ := by rfl
  have valid' : (Contract.twoRatesIncluded.withGeneralRate (.zero euroOverKrona)).validate =
      .ok ⟨⟩ := by rfl
  obtain ⟨schedule, h⟩ := Outcome.exists_of_isOk (x := build .twoRatesIncluded .threeHours)
    (by decide +kernel)
  obtain ⟨-, success, prices⟩ := build_withGeneralRate valid valid' rfl rfl .threeHours
  obtain ⟨other, h'⟩ := success.mpr ⟨schedule, h⟩
  obtain ⟨slots, statistics, -⟩ := prices schedule other h h'
  exact ⟨schedule, other, h, h', slots, statistics⟩

end Schedule

end Tariff
