import Tariff.Document.Measures
import Tariff.Pricing.Contract
import Tariff.Pricing.Publication

/-!
# Documents of contracts and publications

## Main definitions

* `Document.ofContract`, `Document.toContract` — contracts
* `Document.ofPublication`, `Document.toPublication` — publications, with their points and slot
  lengths

## Design notes

Members that a contract does not state have their defaults, and members of other names are passed
over.  A publication must have all of its members.  A contract states its zone by name, and whoever
reads it says which zones have a name.
-/

namespace Tariff.Document

/-! ## Time -/

/-- The document of an instant. -/
def ofInstant (t : Instant) : Document := text t.textUtc

/-- The instant of a document. -/
def toInstant (document : Document) : Decoded Instant := do
  let s ← document.toText
  .ofOption (Instant.read? s)

/-- The document of a zone. -/
def ofZone (zone : Zone) : Document := text zone.name

/-- The zone with a given name, among those that are known. -/
def zoneNamed (zones : String → Option Zone) (name : String) : Decoded Zone :=
  match zones name with
  | some zone => .ok zone
  | none => .error (.zone name)

/-- The zone of a document. -/
def toZone (zones : String → Option Zone) (document : Document) : Decoded Zone := do
  let s ← document.toText
  zoneNamed zones s

/-- The document of a slot length. -/
def ofSlotLength (length : SlotLength) : Document := text length.text

/-- The slot length of a document. -/
def toSlotLength (document : Document) : Decoded SlotLength := do
  let s ← document.toText
  .ofPriced (SlotLength.read s)

/-! ## Publications -/

/-- The document of a point. -/
def ofPoint (point : PricePoint) : Document :=
  record [("position", integer point.position), ("price", ofDecimal point.price)]

/-- The point of a document. -/
def toPoint (document : Document) : Decoded PricePoint :=
  match document.fields? ["position", "price"] with
  | some [position, price] => do
    let position ← required toCount position
    let price ← required toDecimal price
    return ⟨position, price⟩
  | _ => .error .shape

/-- The points of a document. -/
def toPoints : Document → Decoded (List PricePoint)
  | list items => items.mapM toPoint
  | _ => .error .shape

/-- The names of the members of a publication. -/
def publicationNames : List String :=
  ["created", "start", "end", "resolution", "domain", "currency", "energy_unit", "points"]

/-- The document of a publication. -/
def ofPublication (s : Publication) : Document :=
  record [
    ("created", ofInstant s.created), ("start", ofInstant s.start), ("end", ofInstant s.stop),
    ("resolution", ofSlotLength s.slotLength), ("domain", text s.domain),
    ("currency", text s.currency), ("energy_unit", text s.energyUnit),
    ("points", list (s.points.map ofPoint))]

/-- **The publication of a document.** -/
def toPublication (document : Document) : Decoded Publication :=
  match document.fields? publicationNames with
  | some [created, start, stop, slotLength, domain, currency, energyUnit, points] => do
    let created ← required toInstant created
    let start ← required toInstant start
    let stop ← required toInstant stop
    let slotLength ← required toSlotLength slotLength
    let domain ← required toText domain
    let currency ← required toText currency
    let energyUnit ← required toText energyUnit
    let points ← required toPoints points
    return { created, start, stop, slotLength, domain, currency, energyUnit, points }
  | _ => .error .shape

/-! ## Contracts -/

/-- The names of the members of a contract. -/
def contractNames : List String :=
  ["transfer", "tax", "margin", "fees_include_vat", "general_vat", "seller_vat", "currency",
    "energy_unit", "use_subunit", "time_zone", "math_context"]

/-- The document of a contract. -/
def ofContract (c : Contract) : Document :=
  record [
    ("transfer", ofOption (c.transfer.map ofQuantity)), ("tax", ofOption (c.tax.map ofQuantity)),
    ("margin", ofOption (c.margin.map ofQuantity)), ("fees_include_vat", bool c.feesIncludeTax),
    ("general_vat", ofQuantity c.generalRate),
    ("seller_vat", ofOption (c.sellerRate.map ofQuantity)),
    ("currency", ofOption (c.currency.map text)), ("energy_unit", text c.energyUnit),
    ("use_subunit", bool c.useSubunit), ("time_zone", ofZone c.zone),
    ("math_context", ofPrecision c.precision)]

/-- **The contract of a document**, where the given zones are known. -/
def toContract (zones : String → Option Zone) (document : Document) : Decoded Contract :=
  match document.fields? contractNames with
  | some [transfer, tax, margin, feesIncludeTax, generalRate, sellerRate, currency, energyUnit,
      useSubunit, zone, precision] => do
    let usual := Contract.default
    let transfer ← toOption toQuantity transfer
    let tax ← toOption toQuantity tax
    let margin ← toOption toQuantity margin
    let feesIncludeTax ← orElse usual.feesIncludeTax toBool feesIncludeTax
    let generalRate ← orElse usual.generalRate toQuantity generalRate
    let sellerRate ← toOption toQuantity sellerRate
    let currency ← toOption toText currency
    let energyUnit ← orElse usual.energyUnit toText energyUnit
    let useSubunit ← orElse usual.useSubunit toBool useSubunit
    let zone ← orElse usual.zone (toZone zones) zone
    let precision ← orElse usual.precision toPrecision precision
    return {
      transfer, tax, margin, feesIncludeTax, generalRate, sellerRate, currency, energyUnit
      useSubunit, zone, precision }
  | _ => .error .shape

end Tariff.Document
