import Tariff.Pricing.Contract
import Tariff.Pricing.Publication

/-!
# Price schedules

A schedule tells for each slot of a publication what a consumer pays under a contract, and how the
slot compares with the others.

## Main definitions

* `Slot` — the price of a slot, its rank and its place between the extremes
* `Schedule` — the slots with the fees they share and their statistics
* `Schedule.build` — the schedule of a publication under a contract
* `Schedule.current`, `next?`, `upcoming` — the slots at and after an instant
* `Schedule.cheapest?`, `mostExpensive?` — the slots at the extremes

## Design notes

The price of a slot is the sum of four parts, all with tax: transfer, energy tax and margin, which
are the same for all slots, and the spot price.  The parts are added in that order.

Ranks come from the totals in ascending order: the rank of a slot is the place of the first total
that is not below its own, so that equal totals share a rank.  The place between the extremes is
told to two places after the point, from zero for the lowest total to one for the highest.
-/

namespace Tariff

/-- What is paid in a slot. -/
structure Slot where
  /-- Where the slot starts. -/
  start : Instant
  /-- Where the slot ends; this instant is no longer part of it. -/
  stop : Instant
  /-- The spot price with the seller's rate of tax. -/
  spot : TaxedPrice
  /-- All parts together, with tax. -/
  total : Quantity
  /-- One for the lowest total; equal totals share a rank. -/
  rank : Nat
  /-- The place of the total between the lowest and the highest. -/
  normalized : Decimal

/-- Whether an instant lies in a slot. -/
def Slot.covers (slot : Slot) (time : Instant) : Bool :=
  slot.start.upTo time && time.before slot.stop

/-- The parts of a price that are the same for all slots. -/
structure Fees where
  /-- The fee for distribution, at the general rate of tax. -/
  transfer : TaxedPrice
  /-- The tax on energy, at the general rate of tax. -/
  tax : TaxedPrice
  /-- The margin, at the seller's rate of tax. -/
  margin : TaxedPrice

/-- The extremes and the mean of all totals. -/
structure Statistics where
  /-- The lowest total. -/
  min : Quantity
  /-- The mean of the totals. -/
  average : Quantity
  /-- The highest total. -/
  max : Quantity

/-- What is paid in the slots of a publication. -/
structure Schedule where
  /-- When the prices were published. -/
  created : Instant
  /-- Where the first slot starts. -/
  start : Instant
  /-- Where the last slot ends. -/
  stop : Instant
  /-- The zone in which times are told. -/
  zone : Zone
  /-- The length of a slot. -/
  slotLength : SlotLength
  /-- The bidding zone of the publication. -/
  domain : String
  /-- The unit of all prices. -/
  unit : MeasureUnit
  /-- The parts that all slots share. -/
  fees : Fees
  /-- The extremes and the mean of the totals. -/
  statistics : Statistics
  /-- The slots in the order of time. -/
  slots : List Slot
  /-- The precision of the calculation. -/
  precision : Precision

/-! ## Fees -/

namespace Fees

/-- What is wrong with the currency of a fee, which must be that of the target unit. -/
def checkCurrency (target : MeasureUnit) (name : String) (fee : Quantity) : Priced PUnit :=
  let expected := target.currencyCode
  let found := fee.unit.currencyCode
  if found = expected then .ok ⟨⟩
  else .error (.currencyMismatch (expected.getD "") (found.getD "" ++ " (" ++ name ++ ")"))

/-- A fee in the target unit with its rate of tax; a fee that is not stated is nothing. -/
def price (c : Contract) (target : MeasureUnit) (fee : Option Quantity) (rate : Quantity) :
    Priced TaxedPrice := do
  let given ←
    match fee with
    | some fee => .ofMeasured (fee.convert target c.precision)
    | none => .ok (.zero target)
  TaxedPrice.of (if c.feesIncludeTax then .sum given else .amount given) rate

/-- The fees of a contract in the target unit. -/
def ofContract (c : Contract) (target : MeasureUnit) : Priced Fees := do
  let transfer ← price c target c.transfer c.generalRate
  let tax ← price c target c.tax c.generalRate
  let margin ← price c target c.margin c.effectiveSellerRate
  return ⟨transfer, tax, margin⟩

/-- Whether fees agree part by part.  A part whose amount cannot be calculated agrees with none, not
even with itself. -/
def equal (a b : Fees) : Bool :=
  a.transfer.equal b.transfer && a.tax.equal b.tax && a.margin.equal b.margin

/-- **All fees together**, with tax. -/
def sum (fees : Fees) (p : Precision) : Priced Quantity := do
  let transfer ← fees.transfer.sum p
  let tax ← fees.tax.sum p
  let both ← .ofMeasured (transfer.add tax p)
  let margin ← fees.margin.sum p
  .ofMeasured (both.add margin p)

end Fees

/-! ## Totals -/

/-- The price of a slot before it is compared with others. -/
structure PricedPoint where
  /-- The position of the slot. -/
  position : Nat
  /-- The spot price. -/
  spot : TaxedPrice
  /-- All parts together. -/
  total : Quantity

namespace PricedPoint

/-- The price of a slot from its published price. -/
def ofPoint (c : Contract) (target : MeasureUnit) (conversion : Conversion) (fees : Quantity)
    (point : PricePoint) : Priced PricedPoint := do
  let value ← .ofMeasured (conversion.apply c.precision point.price)
  let spot ← TaxedPrice.ofAmount ⟨value, target⟩ c.effectiveSellerRate
  let sum ← spot.sum c.precision
  let total ← .ofMeasured (fees.add sum c.precision)
  return ⟨point.position, spot, total⟩

end PricedPoint

/-- The totals in ascending order. -/
def ascending (totals : List Decimal) : List Decimal :=
  sortBy (fun a b => b.below a) totals

/-- The sum of decimals from left to right, without rounding to a precision. -/
def sumFrom? : Decimal → List Decimal → Option Decimal
  | sum, [] => some sum
  | sum, d :: rest => (sum.add? d).bind fun next => sumFrom? next rest

/-- The mean of decimals. -/
def mean (p : Precision) (values : List Decimal) : Measured Decimal := do
  let sum ← .orOverflow (sumFrom? .zero values)
  let count ← .orOverflow (Decimal.ofNat? values.length)
  p.divide sum count

/-- The rank of a total among all totals in ascending order. -/
def rankAmong (ascending : List Decimal) (total : Decimal) : Nat :=
  (ascending.takeWhile fun other => other.below total).length + 1

/-- A number brought between zero and one. -/
def clampToUnit (d : Decimal) : Decimal :=
  if d.below .zero then .zero
  else if Decimal.one.below d then .one
  else d

/-- The number of places to which the place between the extremes is told. -/
def normalizedPlaces : Nat := 2

/-- **Place between the extremes.**  Zero for the lowest total, one for the highest, and zero where
all totals are equal. -/
def normalize (p : Precision) (min range total : Decimal) : Measured Decimal :=
  if range.isZero then .ok .zero
  else do
    let above ← p.subtract total min
    let ratio ← p.divide above range
    return clampToUnit (p.roundPlaces normalizedPlaces ratio)

namespace Schedule

/-- Where the slot of a position starts and ends.  A slot that would end behind the calendar breaks
the calculation off. -/
def slotTimes (s : Publication) (position : Nat) : Priced (Instant × Instant) :=
  match s.slotStart? position with
  | none => .error (.invalidSeries ("position " ++ toString position ++ " out of range"))
  | some start =>
    match start.plusMinutes? s.slotLength.minutes with
    | none => .error .brokenOff
    | some stop => .ok (start, stop)

/-- The slot of a priced point. -/
def slotOf (s : Publication) (p : Precision) (sorted : List Decimal) (min range : Decimal)
    (point : PricedPoint) : Priced Slot := do
  let normalized ← .ofMeasured (normalize p min range point.total.value)
  let (start, stop) ← slotTimes s point.position
  return ⟨start, stop, point.spot, point.total, rankAmong sorted point.total.value, normalized⟩

/-- What is wrong with the currencies of the fees. -/
def checkFees (c : Contract) (target : MeasureUnit) : Priced PUnit :=
  c.statedFees.forM fun (name, fee) => Fees.checkCurrency target name fee

/-- The lowest and the highest of the totals in ascending order, of which there is one. -/
def extremes (sorted : List Decimal) : Priced (Decimal × Decimal) :=
  match sorted.head?, sorted.getLast? with
  | some lowest, some highest => .ok (lowest, highest)
  | _, _ => .error (.internal "no totals to rank")

/-- The schedule of priced points, which have the given totals. -/
def ofPoints (c : Contract) (s : Publication) (target : MeasureUnit) (fees : Fees)
    (points : List PricedPoint) : Priced Schedule := do
  let p := c.precision
  let totals := points.map fun point => point.total.value
  let sorted := ascending totals
  let (min, max) ← extremes sorted
  let average ← .ofMeasured (mean p totals)
  let range ← .ofMeasured (p.subtract max min)
  let slots ← points.mapM (slotOf s p sorted min range)
  let statistics : Statistics :=
    ⟨Quantity.strip ⟨min, target⟩, Quantity.strip ⟨average, target⟩, Quantity.strip ⟨max, target⟩⟩
  return {
    created := s.created, start := s.start, stop := s.stop, zone := c.zone
    slotLength := s.slotLength, domain := s.domain, unit := target, fees, statistics, slots
    precision := p }

/-- **Building.**  The schedule of a publication under a contract. -/
def build (c : Contract) (s : Publication) : Priced Schedule := do
  c.validate
  s.validate
  let target ← c.targetUnit s.currency
  checkFees c target
  let source ← s.unit
  let conversion ← .ofMeasured (source.conversionTo target)
  let fees ← Fees.ofContract c target
  let feeSum ← fees.sum c.precision
  let points ← s.orderedPoints.mapM (PricedPoint.ofPoint c target conversion feeSum)
  ofPoints c s target fees points

/-! ## Questions to a schedule -/

/-- The slot that covers an instant. -/
def current (schedule : Schedule) (time : Instant) : Priced Slot :=
  match schedule.slots.find? fun slot => slot.covers time with
  | some slot => .ok slot
  | none => .error (.notFound time)

/-- The first slot that starts after an instant. -/
def next? (schedule : Schedule) (time : Instant) : Option Slot :=
  schedule.slots.find? fun slot => time.before slot.start

/-- The slots from the first one that has not ended at an instant. -/
def upcoming (schedule : Schedule) (time : Instant) : List Slot :=
  schedule.slots.dropWhile fun slot => slot.stop.upTo time

/-- Whether the last slot has ended at an instant. -/
def isExpired (schedule : Schedule) (time : Instant) : Bool :=
  schedule.stop.upTo time

/-- The earliest slot with the lowest total. -/
def cheapest? (schedule : Schedule) : Option Slot :=
  schedule.slots.find? fun slot => slot.rank == 1

/-- The highest rank. -/
def topRank (schedule : Schedule) : Nat :=
  schedule.slots.foldl (fun top slot => max top slot.rank) 0

/-- The earliest slot with the highest total. -/
def mostExpensive? (schedule : Schedule) : Option Slot :=
  schedule.slots.find? fun slot => slot.rank == schedule.topRank

end Schedule

end Tariff
