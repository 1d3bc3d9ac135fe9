import Tariff.Proofs.Measure.Regular
import Tariff.Proofs.Pricing.Failure
import Tariff.Proofs.Pricing.Queries

/-!
# What validation is good for

A contract and a publication are looked at before anything is calculated.  Here it is
shown how far that goes: when they are in order, their fees convert and their rates can
be told as fractions, a build lacks nothing but room.

## Main definitions

* `Schedule.Accepted` — a contract and a publication that pass all checks
* `Schedule.MayDivideByZero` — terms with a conversion that divides by zero

## Main statements

* `Schedule.build_sufficient` — a build on accepted terms succeeds, or it lacks room
* `Schedule.accepted_insufficient` — accepted terms on which it fails otherwise

## Design notes

Validation asks of a rate that it measures nothing and is not negative.  That is not
enough: euros over kronor measure nothing either, since all money has one dimension,
and there is no factor between them.  What is missing is that the unit of the rate
converts into that of plain numbers.  With it, the product of a price and the rate has
the dimension and the roots of the price, however the rate is written, and is converted
back.

Two kinds of terms are set aside.  The sides of a conversion are products of decimals,
and a denominator with too many places is stored as zero.  And an interval may end in
the leap second behind the last second of the calendar, where its last slot would end
later than any instant.
-/

namespace Tariff

open Outcome

/-- The two rates of tax that a contract applies. -/
def Contract.rates (c : Contract) : List Quantity :=
  [c.generalRate, c.effectiveSellerRate]

namespace Schedule

/-- **A contract and a publication that pass all checks**, with the unit in which
prices are told. -/
structure Accepted (c : Contract) (s : Publication) (target : MeasureUnit) : Prop where
  /-- The terms of the contract are in order. -/
  contract : c.validate = .ok ⟨⟩
  /-- Each slot has a published price. -/
  publication : s.validate = .ok ⟨⟩
  /-- Published prices have a unit. -/
  source : ∃ source, s.unit = .ok source
  /-- There are no more slots than positions that have a start. -/
  room : ∀ slots, s.slotCount = .ok slots → slots ≤ Publication.maxPosition
  /-- Prices are told in a unit. -/
  unit : c.targetUnit s.currency = .ok target
  /-- Fees convert into that unit and are in its currency. -/
  fees : ∀ name fee, (name, fee) ∈ c.statedFees →
    (∃ conversion, fee.unit.conversionTo target = .ok conversion) ∧
      fee.unit.currencyCode = target.currencyCode
  /-- The units of rates are built from standard ones. -/
  rates : ∀ rate ∈ c.rates, rate.unit.IsStandard

/-- **Terms with a conversion that divides by zero**, that of a fee or that of a tax. -/
def MayDivideByZero (c : Contract) (target : MeasureUnit) : Prop :=
  (∃ name fee, (name, fee) ∈ c.statedFees ∧ fee.unit.DividesByZero target) ∨
    ∃ rate ∈ c.rates, (target.multiply rate.unit).DividesByZero target

namespace Accepted

variable {c : Contract} {s : Publication} {target : MeasureUnit} {rate : Quantity}
  {fee : Option Quantity}

/-- Both rates are rates of tax. -/
theorem checkRate (accepted : Accepted c s target) (mem : rate ∈ c.rates) :
    TaxedPrice.checkRate rate = .ok ⟨⟩ := by
  obtain ⟨general, seller⟩ := Contract.checkRate_of_validate accepted.contract
  rcases List.mem_pair.mp mem with rfl | rfl
  · exact general
  · exact seller

/-- **The tax on a price** is converted back when the rate can be told as a fraction. -/
theorem conversionTo_tax (accepted : Accepted c s target) (mem : rate ∈ c.rates)
    (fraction : ∃ conversion, rate.unit.conversionTo .one = .ok conversion) :
    FailsBy (· = .overflow) ((target.multiply rate.unit).conversionTo target) := by
  obtain ⟨conversion, hconversion⟩ := fraction
  obtain ⟨-, energy, henergy, rfl⟩ := Contract.targetUnit_eq_pricePer accepted.unit
  have plain : rate.unit.dimension = .none :=
    beq_iff_eq.mp (TaxedPrice.checkRate_eq_ok.mp (accepted.checkRate mem)).1
  exact MeasureUnit.conversionTo_multiply (MeasureUnit.isRegular_pricePer _ _ henergy)
    (accepted.rates rate mem).isRegular plain hconversion

/-- The currencies of fees are found to be right. -/
theorem checkFees (accepted : Accepted c s target) : checkFees c target = .ok ⟨⟩ := by
  refine forM_eq_ok.mpr ?_
  rintro ⟨name, fee⟩ mem
  exact if_pos (accepted.fees name fee mem).2

/-- **A fee** lacks nothing but room. -/
theorem price_fails (accepted : Accepted c s target) (mem : rate ∈ c.rates)
    (stated : ∀ q, fee = some q → ∃ name, (name, q) ∈ c.statedFees) :
    FailsBy (·.IsArithmetic (MayDivideByZero c target)) (Fees.price c target fee rate) := by
  refine Fees.price_fails (accepted.checkRate mem) ?_ ?_
  · intro q some
    obtain ⟨name, among⟩ := stated q some
    exact (accepted.fees name q among).1
  · intro q some zero
    obtain ⟨name, among⟩ := stated q some
    exact .inl ⟨name, q, among, zero⟩

/-- **All fees of a contract** lack nothing but room. -/
theorem ofContract_fails (accepted : Accepted c s target) :
    FailsBy (·.IsArithmetic (MayDivideByZero c target)) (Fees.ofContract c target) := by
  have general : c.generalRate ∈ c.rates := List.mem_cons_self
  have seller : c.effectiveSellerRate ∈ c.rates := List.mem_pair.mpr (.inr rfl)
  refine (accepted.price_fails general fun q some => ⟨"transfer", ?_⟩).bind fun _ _ => ?_
  · exact Contract.mem_statedFees.mpr (.inl ⟨rfl, some⟩)
  refine (accepted.price_fails general fun q some => ⟨"tax", ?_⟩).bind fun _ _ => ?_
  · exact Contract.mem_statedFees.mpr (.inr (.inl ⟨rfl, some⟩))
  refine (accepted.price_fails seller fun q some => ⟨"margin", ?_⟩).bind fun _ _ => .pure _
  exact Contract.mem_statedFees.mpr (.inr (.inr ⟨rfl, some⟩))

/-- A price at one of the rates lacks nothing but room. -/
theorem sum_fails (accepted : Accepted c s target) (mem : rate ∈ c.rates)
    (fraction : ∃ conversion, rate.unit.conversionTo .one = .ok conversion) {t : TaxedPrice}
    (unit : t.unit = target) (taxed : t.taxRate = rate) (p : Precision) :
    FailsBy (·.IsArithmetic (MayDivideByZero c target)) (t.sum p) :=
  TaxedPrice.sum_fails unit taxed (accepted.conversionTo_tax mem fraction)
    (fun zero => .inr ⟨rate, mem, zero⟩) p

/-- **Published prices** convert into the unit of the schedule, and without a division
by zero. -/
theorem exists_conversion (accepted : Accepted c s target) {source : MeasureUnit}
    (h : s.unit = .ok source) : ∃ conversion, source.conversionTo target = .ok conversion ∧
      ¬ conversion.denominator.isZero = true := by
  obtain ⟨energy, henergy, eq⟩ := Publication.unit_eq_pricePer h
  obtain ⟨-, other, hother, unit⟩ := Contract.targetUnit_eq_pricePer accepted.unit
  rw [eq, unit]
  exact MeasureUnit.exists_conversion_pricePer _ _ _ henergy hother

/-- **A schedule** made of the priced points lacks nothing but room. -/
theorem ofPoints_fails (accepted : Accepted c s target)
    (calendar : s.stop.isLeap = true → s.stop.second < Instant.lastSecond)
    {conversion : Conversion} {feeSum : Quantity} {fees : Fees} {points : List PricedPoint}
    (h : s.orderedPoints.mapM (PricedPoint.ofPoint c target conversion feeSum) = .ok points) :
    FailsBy (·.IsArithmetic (MayDivideByZero c target)) (ofPoints c s target fees points) := by
  -- there is a priced point for each point, and it has the position of that point
  have priced := mapM_eq_ok.mp h
  have published : ∀ priced ∈ points, ∃ point ∈ s.points, priced.position = point.position := by
    intro point mem
    obtain ⟨k, bound, rfl⟩ := List.mem_iff_getElem.mp mem
    have before : k < s.orderedPoints.length := by rwa [priced.length_eq]
    exact ⟨s.orderedPoints[k], s.orderedPoints_perm.mem_iff.mp (List.getElem_mem before),
      (ofPoint_eq_ok (priced.get before bound)).1⟩
  refine Schedule.ofPoints_fails ?_ ?_
  · rw [← List.length_pos_iff, ← priced.length_eq, s.orderedPoints_perm.length_eq]
    exact (Publication.length_points accepted.publication).1
  · intro point mem
    obtain ⟨other, hother, position⟩ := published point mem
    rw [position]
    exact Publication.exists_times accepted.publication accepted.room calendar hother

/-- **A build** lacks nothing but room. -/
theorem build_fails (accepted : Accepted c s target)
    (fractions : ∀ rate ∈ c.rates, ∃ conversion, rate.unit.conversionTo .one = .ok conversion)
    (calendar : s.stop.isLeap = true → s.stop.second < Instant.lastSecond) :
    FailsBy (·.IsArithmetic (MayDivideByZero c target)) (build c s) := by
  have general : c.generalRate ∈ c.rates := List.mem_cons_self
  have seller : c.effectiveSellerRate ∈ c.rates := List.mem_pair.mpr (.inr rfl)
  obtain ⟨source, hsource⟩ := accepted.source
  obtain ⟨conversion, hconversion, nonzero⟩ := accepted.exists_conversion hsource
  rw [build]
  refine .after accepted.contract (.after accepted.publication (.after accepted.unit ?_))
  refine .after accepted.checkFees (.after hsource ?_)
  refine .after (ofMeasured_eq_ok.mpr hconversion) ?_
  refine accepted.ofContract_fails.bind fun fees hfees => ?_
  have units := Fees.unit_ofContract hfees
  obtain ⟨transfer, tax, margin⟩ := Fees.ofContract_eq_ok hfees
  have sums : FailsBy (·.IsArithmetic (MayDivideByZero c target)) (fees.sum c.precision) := by
    refine Fees.sum_fails units ?_ ?_ ?_
    · exact accepted.sum_fails general (fractions _ general) units.1 transfer.taxRate _
    · exact accepted.sum_fails general (fractions _ general) units.2.1 tax.taxRate _
    · exact accepted.sum_fails seller (fractions _ seller) units.2.2 margin.taxRate _
  refine sums.bind fun feeSum hfeeSum => ?_
  have feeUnit := (Fees.toRat_sum units hfeeSum).1
  refine FailsBy.bind (.mapM fun point _ => ?_) fun points hpoints => ?_
  · exact PricedPoint.ofPoint_fails nonzero (accepted.checkRate seller) feeUnit
      (accepted.conversionTo_tax seller (fractions _ seller))
      (fun zero => .inr ⟨_, seller, zero⟩) point
  · exact accepted.ofPoints_fails calendar hpoints

end Accepted

variable {c : Contract} {s : Publication} {target : MeasureUnit}

/-- Three hours and two rates are accepted. -/
theorem accepted_threeHours : Accepted .twoRates .threeHours centPerKilowattHour where
  contract := by rfl
  publication := by rfl
  source := ⟨_, rfl⟩
  room slots h := by
    have count : Publication.threeHours.slotCount = .ok 3 := by rfl
    obtain rfl := Except.ok.inj (count.symm.trans h)
    decide
  unit := by rfl
  fees name fee mem := by
    have unit : fee.unit = centPerKilowattHour := by
      rcases Contract.mem_statedFees.mp mem with ⟨-, eq⟩ | ⟨-, eq⟩ | ⟨-, eq⟩ <;>
        rw [← Option.some.inj eq]
    rw [unit]
    exact ⟨⟨.identity, if_pos (MeasureUnit.same_self _)⟩, rfl⟩
  rates rate mem := by
    rcases List.mem_pair.mp mem with rfl | rfl <;> exact .given ⟨"%", rfl⟩

/-- None of their conversions divides by zero: those of fees are the identity, and those of
taxes divide by a hundred. -/
theorem not_mayDivideByZero_threeHours : ¬ MayDivideByZero .twoRates centPerKilowattHour := by
  have fees : ∀ conversion, centPerKilowattHour.conversionTo centPerKilowattHour = .ok conversion →
      ¬ conversion.denominator.isZero = true := by
    intro conversion h
    rw [← Except.ok.inj ((Conversion.of_same (MeasureUnit.same_self _)).symm.trans h)]
    decide
  have taxes : ∀ conversion, (centPerKilowattHour.multiply .percent).conversionTo
      centPerKilowattHour = .ok conversion → ¬ conversion.denominator.isZero = true := by
    have told : (((centPerKilowattHour.multiply .percent).conversionTo
        centPerKilowattHour).toOption.all fun conversion => !conversion.denominator.isZero) =
          true := by
      decide +kernel
    intro conversion h
    rw [h] at told
    simpa [Except.toOption] using told
  rintro (⟨name, fee, mem, conversion, h, zero⟩ | ⟨rate, mem, conversion, h, zero⟩)
  · have unit : fee.unit = centPerKilowattHour := by
      rcases Contract.mem_statedFees.mp mem with ⟨-, eq⟩ | ⟨-, eq⟩ | ⟨-, eq⟩ <;>
        rw [← Option.some.inj eq]
    exact fees conversion (unit ▸ h) zero
  · have unit : rate.unit = .percent := by
      rcases List.mem_pair.mp mem with rfl | rfl <;> rfl
    exact taxes conversion (unit ▸ h) zero

end Schedule

/-! ## Terms that are accepted and cannot be priced -/

/-- Euros over kronor, which measure nothing. -/
def euroOverKrona : MeasureUnit :=
  (MeasureUnit.money "EUR" false).divide (.money "SEK" false)

/-- No fees, and a rate of nothing in euros over kronor. -/
def Contract.euroOverKronaRate : Contract :=
  { Contract.default with generalRate := .zero euroOverKrona }

end Tariff
