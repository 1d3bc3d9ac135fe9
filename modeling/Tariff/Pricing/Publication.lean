import Tariff.Measure.Unit.Named
import Tariff.Pricing.SlotLength
import Tariff.Decimal.Basic
import Tariff.Sorting

/-!
# Published prices

A publication gives one price for each slot of an interval.

## Main definitions

* `PricePoint` — the price of the slot at a position
* `Publication` — points with the interval, the currency and the energy unit they belong to
* `Publication.slotCount` — the number of slots of the interval
* `Publication.validate` — what is wrong with a publication
* `Publication.orderedPoints`, `Publication.slotStart?` — the points by position, and their times

## Design notes

Positions count from one.  Points may be published in any order, but each slot must have exactly
one: the walk over the points stops at the first that is out of place, and then their number is
compared with that of the slots.
-/

namespace Tariff

/-- The price of one slot. -/
structure PricePoint where
  /-- The position of the slot, from one. -/
  position : Nat
  /-- The price in the unit of the publication. -/
  price : Decimal
deriving DecidableEq

/-- Prices for the slots of an interval. -/
structure Publication where
  /-- When the prices were published. -/
  created : Instant
  /-- Where the interval starts. -/
  start : Instant
  /-- Where the interval ends; this instant is no longer part of it. -/
  stop : Instant
  /-- The length of a slot. -/
  slotLength : SlotLength
  /-- The bidding zone for which the prices hold. -/
  domain : String
  /-- The code of the currency. -/
  currency : String
  /-- The symbol of the energy unit. -/
  energyUnit : String
  /-- The prices, in any order. -/
  points : List PricePoint
deriving DecidableEq

namespace Publication

/-- The greatest number of slots. -/
def maxSlots : Nat := 4294967295

/-- **Slots of the interval.**  Their number, if the interval is made up of whole slots. -/
def slotCount (s : Publication) : Priced Nat :=
  let span := s.start.nanosUntil s.stop
  if span.tdiv nanosPerMinute ≤ 0 then
    .error (.invalidSeries
      ("start " ++ s.start.spokenUtc ++ " is not before end " ++ s.stop.spokenUtc))
  else if span % s.slotLength.nanos ≠ 0 then
    .error (.invalidSeries
      ("interval " ++ s.start.spokenUtc ++ " to " ++ s.stop.spokenUtc ++ " is not a multiple of "
        ++ s.slotLength.text))
  else
    let count := (span / s.slotLength.nanos).toNat
    if count ≤ maxSlots then .ok count else .error (.invalidSeries "too many slots")

/-- What is wrong with the positions of points, given how many slots there are and which positions
have been seen. -/
def checkPositions (slots : Nat) : (seen : List Nat) → List PricePoint → Priced PUnit
  | _, [] => .ok ⟨⟩
  | seen, point :: rest =>
    if point.position = 0 ∨ slots < point.position then
      .error (.invalidSeries
        ("position " ++ toString point.position ++ " outside 1..=" ++ toString slots))
    else if seen.contains point.position then
      .error (.invalidSeries ("duplicate position " ++ toString point.position))
    else
      checkPositions slots (point.position :: seen) rest

/-- **Validation.**  What is wrong with a publication: each slot must have exactly one price. -/
def validate (s : Publication) : Priced PUnit :=
  if s.points.isEmpty then .error (.invalidSeries "series has no points")
  else do
    let slots ← s.slotCount
    checkPositions slots [] s.points
    if s.points.length = slots then .ok ⟨⟩
    else
      .error (.invalidSeries
        (toString s.points.length ++ " of " ++ toString slots ++ " slots have a price"))

/-- The points ordered by position. -/
def orderedPoints (s : Publication) : List PricePoint :=
  sortBy (fun a b => b.position < a.position) s.points

/-- The greatest position whose start is looked for. -/
def maxPosition : Nat := 2147483648

/-- **Start of a slot.**  There is none for a position of zero, for positions above the greatest,
and where the calendar ends. -/
def slotStart? (s : Publication) (position : Nat) : Option Instant :=
  if 1 ≤ position ∧ position ≤ maxPosition then
    s.start.plusMinutes? ((position - 1) * s.slotLength.minutes)
  else none

/-- The unit of the prices; the currency may be written in any case. -/
def unit (s : Publication) : Priced MeasureUnit :=
  .ofMeasured do
    let currency ← MeasureUnit.currency (Text.upper s.currency)
    let energy ← MeasureUnit.energyNamed s.energyUnit
    return currency.divide energy

end Publication

end Tariff
