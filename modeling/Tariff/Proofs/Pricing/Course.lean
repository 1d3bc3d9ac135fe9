import Tariff.Proofs.Pricing.Fees
import Tariff.Proofs.Pricing.Positions

/-!
# The course of a build

A schedule is built step by step, and the first step that fails ends the build.
Of a schedule that was built all steps are known to have succeeded; this module
says what they were.

## Main definitions

* `Slot.charge` — what is paid in a slot, as a number
* `Schedule.totals`, `lowest`, `highest` — the totals of a schedule and their
  extremes
* `Schedule.SlotFor` — a slot calculated from a published price
* `Schedule.Built` — a schedule all of whose parts were calculated

## Main statements

* `Schedule.built_of_build` — what is built is calculated part by part
* `Schedule.Built.slotFor` — each slot comes from the point of its position

## Design notes

`SlotFor` and `Built` name no intermediate results beyond those that a reader of
the schedule can calculate again: two slots of one schedule have the same fees,
conversion and range, since the calculation of each of these has one result.
-/

namespace Tariff

/-- What is paid in a slot, as a number. -/
def Slot.charge (slot : Slot) : ℚ := slot.total.value.toRat

theorem ascending_perm (totals : List Decimal) : (ascending totals).Perm totals :=
  sortBy_perm _ _

/-- Some total stays some total when they are sorted. -/
theorem ascending_ne_nil {totals : List Decimal} (some : totals ≠ []) : ascending totals ≠ [] := by
  intro none
  have perm := ascending_perm totals
  rw [none] at perm
  exact some perm.nil_eq.symm

namespace Schedule

/-- The totals in the order of time. -/
def totals (schedule : Schedule) : List Decimal :=
  schedule.slots.map fun slot => slot.total.value

/-- The lowest of the totals. -/
def lowest (schedule : Schedule) : Decimal :=
  (ascending schedule.totals).headD .zero

/-- The highest of the totals. -/
def highest (schedule : Schedule) : Decimal :=
  (ascending schedule.totals).getLastD .zero

/-- **A slot calculated from a published price.** -/
structure SlotFor (c : Contract) (s : Publication) (schedule : Schedule) (point : PricePoint)
    (slot : Slot) : Prop where
  /-- The position tells where the slot starts. -/
  starts : s.slotStart? point.position = some slot.start
  /-- Slots have the length that is published with them. -/
  stops : slot.start.plusMinutes? s.slotLength.minutes = some slot.stop
  /-- The spot price is the published one in the unit of the schedule. -/
  spot : ∃ source price, s.unit = .ok source ∧
    Quantity.convert ⟨point.price, source⟩ schedule.unit c.precision = .ok price ∧
      slot.spot = ⟨c.effectiveSellerRate, .amount price⟩
  /-- The total is the spot price with tax on top of all fees. -/
  total : ∃ fees sum, schedule.fees.sum c.precision = .ok fees ∧
    slot.spot.sum c.precision = .ok sum ∧ fees.add sum c.precision = .ok slot.total
  /-- The rank is that among all totals. -/
  rank : slot.rank = rankAmong (ascending schedule.totals) slot.total.value
  /-- The place is that between the extremes. -/
  normalized : ∃ range, c.precision.subtract schedule.highest schedule.lowest = .ok range ∧
    normalize c.precision schedule.lowest range slot.total.value = .ok slot.normalized

/-- **A schedule all of whose parts were calculated.** -/
structure Built (c : Contract) (s : Publication) (schedule : Schedule) : Prop where
  /-- The terms of the contract are in order. -/
  contract : c.validate = .ok ⟨⟩
  /-- Each slot has a published price. -/
  publication : s.validate = .ok ⟨⟩
  /-- The unit is the one that the contract asks for. -/
  unit : c.targetUnit s.currency = .ok schedule.unit
  /-- The fees are in the currency of that unit. -/
  currencies : checkFees c schedule.unit = .ok ⟨⟩
  /-- The fees are those of the contract in that unit. -/
  fees : Fees.ofContract c schedule.unit = .ok schedule.fees
  /-- There is a slot for each point, in the order of positions. -/
  slots : List.Forall₂ (SlotFor c s schedule) s.orderedPoints schedule.slots
  /-- The statistics are about the totals of the slots. -/
  statistics : ∃ average, mean c.precision schedule.totals = .ok average ∧
    schedule.statistics =
      ⟨Quantity.strip ⟨schedule.lowest, schedule.unit⟩,
        Quantity.strip ⟨average, schedule.unit⟩,
        Quantity.strip ⟨schedule.highest, schedule.unit⟩⟩
  /-- The schedule spans the interval of the publication. -/
  span : schedule.start = s.start ∧ schedule.stop = s.stop
  /-- All other fields are those of the publication and the contract. -/
  origin : schedule.created = s.created ∧ schedule.domain = s.domain ∧
    schedule.slotLength = s.slotLength ∧ schedule.zone = c.zone ∧
      schedule.precision = c.precision

/-! ## One step after the other -/

/-- A point is priced by conversion, tax and fees. -/
theorem ofPoint_eq_ok {c : Contract} {target : MeasureUnit} {conversion : Conversion}
    {fees : Quantity} {point : PricePoint} {priced : PricedPoint}
    (h : PricedPoint.ofPoint c target conversion fees point = .ok priced) :
    priced.position = point.position ∧
      ∃ value, conversion.apply c.precision point.price = .ok value ∧
        priced.spot = ⟨c.effectiveSellerRate, .amount ⟨value, target⟩⟩ ∧
          ∃ sum, priced.spot.sum c.precision = .ok sum ∧
            fees.add sum c.precision = .ok priced.total := by
  obtain ⟨value, hvalue, h⟩ := Outcome.bind_eq_ok.mp h
  obtain ⟨spot, hspot, h⟩ := Outcome.bind_eq_ok.mp h
  obtain ⟨sum, hsum, h⟩ := Outcome.bind_eq_ok.mp h
  obtain ⟨total, htotal, h⟩ := Outcome.bind_eq_ok.mp h
  obtain rfl := Outcome.pure_eq_ok.mp h
  obtain ⟨_, -, hspot⟩ := Outcome.bind_eq_ok.mp hspot
  obtain rfl := Outcome.pure_eq_ok.mp hspot
  exact ⟨rfl, value, Outcome.ofMeasured_eq_ok.mp hvalue, rfl, sum, hsum,
    Outcome.ofMeasured_eq_ok.mp htotal⟩

/-- A slot has the length of all slots. -/
theorem slotTimes_eq_ok {s : Publication} {position : ℕ} {start stop : Instant} :
    slotTimes s position = .ok (start, stop) ↔ s.slotStart? position = some start ∧
      start.plusMinutes? s.slotLength.minutes = some stop := by
  rw [slotTimes]
  split
  · next none => simp [none]
  · next first starts =>
      split
      · next none =>
          simp only [starts, Option.some.injEq, reduceCtorEq, false_iff, not_and]
          rintro rfl
          simp [none]
      · next last stops =>
          simp only [starts, Except.ok.injEq, Prod.mk.injEq, Option.some.injEq]
          constructor
          · rintro ⟨rfl, rfl⟩
            exact ⟨rfl, stops⟩
          · rintro ⟨rfl, eq⟩
            exact ⟨rfl, Option.some.inj (stops.symm.trans eq)⟩

/-- A slot is a priced point with its times, its rank and its place. -/
theorem slotOf_eq_ok {s : Publication} {p : Precision} {sorted : List Decimal}
    {min range : Decimal} {priced : PricedPoint} {slot : Slot}
    (h : slotOf s p sorted min range priced = .ok slot) :
    s.slotStart? priced.position = some slot.start ∧
      slot.start.plusMinutes? s.slotLength.minutes = some slot.stop ∧
        slot.spot = priced.spot ∧ slot.total = priced.total ∧
          slot.rank = rankAmong sorted priced.total.value ∧
            normalize p min range priced.total.value = .ok slot.normalized := by
  obtain ⟨normalized, hnormalized, h⟩ := Outcome.bind_eq_ok.mp h
  obtain ⟨⟨start, stop⟩, times, h⟩ := Outcome.bind_eq_ok.mp h
  obtain rfl := Outcome.pure_eq_ok.mp h
  obtain ⟨starts, stops⟩ := slotTimes_eq_ok.mp times
  exact ⟨starts, stops, rfl, rfl, rfl, Outcome.ofMeasured_eq_ok.mp hnormalized⟩

/-- The extremes are the first and the last of the sorted totals. -/
theorem extremes_of_ne_nil {sorted : List Decimal} (some : sorted ≠ []) :
    extremes sorted = .ok (sorted.headD .zero, sorted.getLastD .zero) := by
  cases sorted with
  | nil => exact absurd rfl some
  | cons first rest =>
      rw [extremes, List.head?_cons, List.getLast?_cons, List.headD_cons, List.getLastD_cons,
        List.getLastD_eq_getLast?]

theorem extremes_eq_ok {sorted : List Decimal} {low high : Decimal}
    (h : extremes sorted = .ok (low, high)) :
    sorted ≠ [] ∧ low = sorted.headD .zero ∧ high = sorted.getLastD .zero := by
  have some : sorted ≠ [] := by
    rintro rfl
    cases h
  rw [extremes_of_ne_nil some, Except.ok.injEq, Prod.mk.injEq] at h
  exact ⟨some, h.1.symm, h.2.symm⟩

/-- **What is built is calculated part by part.** -/
theorem built_of_build {c : Contract} {s : Publication} {schedule : Schedule}
    (h : build c s = .ok schedule) : Built c s schedule := by
  obtain ⟨⟨⟩, contract, h⟩ := Outcome.bind_eq_ok.mp h
  obtain ⟨⟨⟩, publication, h⟩ := Outcome.bind_eq_ok.mp h
  obtain ⟨target, unit, h⟩ := Outcome.bind_eq_ok.mp h
  obtain ⟨⟨⟩, currencies, h⟩ := Outcome.bind_eq_ok.mp h
  obtain ⟨source, hsource, h⟩ := Outcome.bind_eq_ok.mp h
  obtain ⟨conversion, hconversion, h⟩ := Outcome.bind_eq_ok.mp h
  obtain ⟨fees, hfees, h⟩ := Outcome.bind_eq_ok.mp h
  obtain ⟨feeSum, hfeeSum, h⟩ := Outcome.bind_eq_ok.mp h
  obtain ⟨points, hpoints, h⟩ := Outcome.bind_eq_ok.mp h
  obtain ⟨⟨low, high⟩, hextremes, h⟩ := Outcome.bind_eq_ok.mp h
  obtain ⟨-, rfl, rfl⟩ := extremes_eq_ok hextremes
  obtain ⟨average, haverage, h⟩ := Outcome.bind_eq_ok.mp h
  obtain ⟨range, hrange, h⟩ := Outcome.bind_eq_ok.mp h
  obtain ⟨slots, hslots, h⟩ := Outcome.bind_eq_ok.mp h
  obtain rfl := Outcome.pure_eq_ok.mp h
  rw [Outcome.mapM_eq_ok] at hpoints hslots
  rw [Outcome.ofMeasured_eq_ok] at hconversion haverage hrange
  -- the slots have the totals of the points, from which ranks and extremes were taken
  have totals : (points.map fun point => point.total.value) =
      slots.map fun slot => slot.total.value := by
    rw [← List.forall₂_eq_eq_eq, List.forall₂_map_left_iff, List.forall₂_map_right_iff]
    refine hslots.imp ?_
    intro priced slot step
    rw [(slotOf_eq_ok step).2.2.2.1]
  rw [totals] at haverage hrange hslots ⊢
  refine
    { contract, publication, unit, currencies
      fees := hfees
      slots := Outcome.forall₂_trans ?_ hpoints hslots
      statistics := ⟨average, haverage, rfl⟩
      span := ⟨rfl, rfl⟩
      origin := ⟨rfl, rfl, rfl, rfl, rfl⟩ }
  intro point priced slot first second
  obtain ⟨position, value, hvalue, spot, sum, hsum, total⟩ := ofPoint_eq_ok first
  obtain ⟨starts, stops, sameSpot, sameTotal, rank, normalized⟩ := slotOf_eq_ok second
  rw [← sameSpot] at spot hsum
  rw [← sameTotal] at total rank normalized
  have converted : Quantity.convert ⟨point.price, source⟩ target c.precision =
      .ok ⟨value, target⟩ :=
    Quantity.convert_eq_ok.mpr ⟨conversion, hconversion, value, hvalue, rfl⟩
  exact
    { starts := position ▸ starts
      stops
      spot := ⟨source, ⟨value, target⟩, hsource, converted, spot⟩
      total := ⟨feeSum, sum, hfeeSum, hsum, total⟩
      rank
      normalized := ⟨range, hrange, normalized⟩ }

/-! ## Slots and points -/

variable {c : Contract} {s : Publication} {schedule : Schedule} {point : PricePoint}
  {slot : Slot} {k : ℕ}

namespace Built

/-- There is a slot for each point. -/
theorem length_slots (built : Built c s schedule) :
    schedule.slots.length = s.points.length := by
  rw [← built.slots.length_eq, s.orderedPoints_perm.length_eq]

/-- The slot in a place is that of a point with the position of the place. -/
theorem exists_point (built : Built c s schedule) (h : schedule.slots[k]? = some slot) :
    ∃ point ∈ s.points, point.position = k + 1 ∧ SlotFor c s schedule point slot := by
  obtain ⟨bound, rfl⟩ := List.getElem?_eq_some_iff.mp h
  have before : k < s.orderedPoints.length := by rwa [built.slots.length_eq]
  have here : s.orderedPoints[k]? = some s.orderedPoints[k] := List.getElem?_eq_getElem before
  refine ⟨s.orderedPoints[k], s.orderedPoints_perm.mem_iff.mp (List.getElem_mem before),
    Publication.position_of_getElem? built.publication here, ?_⟩
  exact built.slots.get before bound

/-- **Each slot comes from the point of its position.** -/
theorem slotFor (built : Built c s schedule) (h : schedule.slots[k]? = some slot)
    (mem : point ∈ s.points) (position : point.position = k + 1) :
    SlotFor c s schedule point slot := by
  obtain ⟨other, hother, place, slotFor⟩ := built.exists_point h
  obtain rfl := Publication.eq_of_position_eq built.publication hother mem
    (place.trans position.symm)
  exact slotFor

/-- Some point is published, and so there is some slot. -/
theorem slots_ne_nil (built : Built c s schedule) : schedule.slots ≠ [] := by
  rw [← List.length_pos_iff, built.length_slots]
  exact (Publication.length_points built.publication).1

end Built

/-- **A total on numbers** is the price with tax on top of all fees. -/
theorem SlotFor.toRat_total (built : Built c s schedule)
    (slotFor : SlotFor c s schedule point slot) :
    slot.total.unit = schedule.unit ∧
      ∃ fees sum, schedule.fees.sum c.precision = .ok fees ∧
        slot.spot.sum c.precision = .ok sum ∧
          slot.charge = c.precision.keep (fees.value.toRat + sum.value.toRat) := by
  obtain ⟨fees, sum, hfees, hsum, total⟩ := slotFor.total
  obtain ⟨source, price, -, converted, spot⟩ := slotFor.spot
  obtain ⟨_, -, value, -, rfl⟩ := Quantity.convert_eq_ok.mp converted
  have feesUnit := (Fees.toRat_sum (Fees.unit_ofContract built.fees) hfees).1
  have sumUnit : sum.unit = schedule.unit := by
    rw [TaxedPrice.unit_sum hsum, spot]
    rfl
  obtain ⟨totalUnit, totalValue⟩ := Quantity.toRat_add (sumUnit.trans feesUnit.symm) total
  exact ⟨totalUnit.trans feesUnit, fees, sum, hfees, hsum, totalValue⟩

end Schedule

/-! ## A schedule at hand

Statements about schedules that are built are checked against one of them. -/

/-- Cents for a kilowatt hour. -/
def centPerKilowattHour : MeasureUnit :=
  ((MeasureUnit.primitive "EUR" "EUR" Dimension.currency).scaled "c" "cent" (.ofDigits 1 2)).divide
    .kilowattHour

/-- Fees without tax and two rates of tax. -/
def Contract.twoRates : Contract where
  transfer := some ⟨.ofDigits 340 2, centPerKilowattHour⟩
  tax := some ⟨.ofDigits 225 2, centPerKilowattHour⟩
  margin := some ⟨.ofDigits 49 2, centPerKilowattHour⟩
  feesIncludeTax := false
  generalRate := ⟨.ofDigits 255 1, .percent⟩
  sellerRate := some ⟨.ofDigits 100 1, .percent⟩

/-- Prices for three hours, published out of order; two are the same number. -/
def Publication.threeHours : Publication where
  created := ⟨0, 0, by decide, by decide, by decide⟩
  start := ⟨0, 0, by decide, by decide, by decide⟩
  stop := ⟨10800, 0, by decide, by decide, by decide⟩
  slotLength := ⟨60, by decide, by decide⟩
  domain := "FI"
  currency := "EUR"
  energyUnit := "MWh"
  points := [⟨2, .ofDigits 50 0⟩, ⟨1, .ofDigits 10049 2⟩, ⟨3, .ofDigits 100490 3⟩]

theorem Schedule.exists_threeHours :
    ∃ schedule, Schedule.build .twoRates .threeHours = .ok schedule :=
  Outcome.exists_of_isOk (by decide +kernel)

/-- The second hour is the cheapest, and the others cost the same. -/
theorem Schedule.charges_threeHours {schedule : Schedule}
    (h : Schedule.build .twoRates .threeHours = .ok schedule) :
    schedule.slots.map Slot.charge = [18.68365, 13.12975, 18.68365] := by
  have charges : (Schedule.build .twoRates .threeHours).toOption.map
      (fun schedule => schedule.slots.map Slot.charge) =
        some [18.68365, 13.12975, 18.68365] := by
    decide +kernel
  rw [h] at charges
  exact Option.some.inj charges

end Tariff
