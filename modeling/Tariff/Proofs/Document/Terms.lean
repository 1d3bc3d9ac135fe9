import Tariff.Document.Terms
import Tariff.Proofs.Document.Measures
import Tariff.Proofs.Pricing.Course
import Tariff.Proofs.Pricing.SlotLength
import Tariff.Proofs.Pricing.Terms
import Tariff.Proofs.Time.Text

/-!
# Documents of contracts and publications that are read again

Contracts and publications are exchanged as documents.  Whoever reads one gets the terms that
were written, and no document makes a precision or a slot length that calculations cannot use.

## Main definitions

* `Contract.IsWritable`, `Publication.IsWritable` — terms that can be written

## Main statements

* `Document.survives_contract`, `Document.survives_publication` — the terms survive
* `Document.precision_of_toContract`, `Document.slotLength_of_toPublication` — what is read has
  the precision and the slot length that its document states
* `Document.terms_survive` — all of this together
* `Document.leastPower_lost` — a contract with an exponent that is not written

## Design notes

A value of a document is written by a function for its type and read by another, and the two are
kept apart: quantities are texts, precisions are records, and slot lengths are written in one of two
ways.  Each pair is looked at on its own, and the members of a record are then read one after the
other.
-/

namespace Tariff

namespace Document

/-! ## Parts of terms -/

/-- **Instants survive** if they read back. -/
theorem survives_instant {t : Instant} (civil : t.IsCivil) :
    Survives ofInstant toInstant (· = ·) t := by
  refine ⟨t, ?_, rfl⟩
  rw [ofInstant, toInstant, toText]
  exact Outcome.bind_eq_ok.mpr ⟨t.textUtc, rfl, by rw [Instant.read?_textUtc civil]; rfl⟩

/-- **Zones survive** where they are known by their names. -/
theorem survives_zone {zones : String → Option Zone} {zone : Zone}
    (known : zones zone.name = some zone) : Survives ofZone (toZone zones) (· = ·) zone := by
  refine ⟨zone, ?_, rfl⟩
  rw [ofZone, toZone, toText]
  exact Outcome.bind_eq_ok.mpr ⟨zone.name, rfl, by rw [zoneNamed, known]⟩

theorem toSlotLength_eq_ok {document : Document} {length : SlotLength} :
    toSlotLength document = .ok length ↔
      ∃ s, document = text s ∧ SlotLength.read s = .ok length := by
  have priced : ∀ x : Priced SlotLength, Decoded.ofPriced x = .ok length ↔ x = .ok length := by
    intro x
    cases x <;> simp [Decoded.ofPriced]
  rw [toSlotLength, Outcome.bind_eq_ok]
  simp only [priced]
  cases document <;> simp [toText]

/-- **Slot lengths survive.** -/
theorem survives_slotLength (length : SlotLength) :
    Survives ofSlotLength toSlotLength (· = ·) length :=
  ⟨length, toSlotLength_eq_ok.mpr ⟨length.text, rfl, length.read_text⟩, rfl⟩

end Document

/-- **Points that can be written** have positions of at most 32 bits, and their prices have no more
places than are stored. -/
structure PricePoint.IsWritable (point : PricePoint) : Prop where
  /-- The position has at most 32 bits. -/
  position : (point.position : ℤ) ≤ Document.maxCount
  /-- The price has no more places than are stored. -/
  price : point.price.scale ≤ maxPlaces

/-- **Publications that can be written** have instants with a written form, and points that can be
written. -/
structure Publication.IsWritable (s : Publication) : Prop where
  /-- The instant of the publication has a written form. -/
  created : s.created.IsCivil
  /-- So has the start of its interval. -/
  start : s.start.IsCivil
  /-- So has the end. -/
  stop : s.stop.IsCivil
  /-- Each point can be written. -/
  points : ∀ point ∈ s.points, point.IsWritable

/-- The quantities that a contract states. -/
def Contract.quantities (c : Contract) : List Quantity :=
  c.transfer.toList ++ c.tax.toList ++ c.margin.toList ++ c.generalRate :: c.sellerRate.toList

/-- **Contracts that can be written** for a reader who knows the given zones state quantities that
can be written, and a zone that is known by its name. -/
structure Contract.IsWritable (zones : String → Option Zone) (c : Contract) : Prop where
  /-- Each quantity can be written. -/
  quantities : ∀ q ∈ c.quantities, q.IsWritable
  /-- The zone is found by its name. -/
  zone : zones c.zone.name = some c.zone

namespace Document

/-- **Points survive.** -/
theorem survives_point {point : PricePoint} (writable : point.IsWritable) :
    Survives ofPoint toPoint PricePoint.Alike point := by
  obtain ⟨price, hprice, alike⟩ := survives_decimal writable.price
  refine ⟨⟨point.position, price⟩, ?_, rfl, alike⟩
  have fields : (ofPoint point).fields? ["position", "price"] =
      some [some (integer point.position), some (ofDecimal point.price)] := by
    simp [ofPoint, fields?, member?]
  have position : toCount (integer point.position) = .ok point.position :=
    toCount_eq_ok.mpr ⟨rfl, writable.position⟩
  rw [toPoint, fields]
  simp only [required, position, hprice]
  rfl

/-! ## Publications -/

/-- **Publications survive.** -/
theorem survives_publication {s : Publication} (writable : s.IsWritable) :
    Survives ofPublication toPublication Publication.Alike s := by
  obtain ⟨created, hcreated, rfl⟩ := survives_instant writable.created
  obtain ⟨start, hstart, rfl⟩ := survives_instant writable.start
  obtain ⟨stop, hstop, rfl⟩ := survives_instant writable.stop
  obtain ⟨length, hlength, rfl⟩ := survives_slotLength s.slotLength
  obtain ⟨points, hpoints, alike⟩ :=
    Survives.list fun point mem => survives_point (writable.points point mem)
  refine ⟨{ s with points }, ?_, ⟨rfl, rfl, rfl, rfl, rfl, rfl, rfl, alike⟩⟩
  have fields : (ofPublication s).fields? publicationNames = some
      [some (ofInstant s.created), some (ofInstant s.start), some (ofInstant s.stop),
        some (ofSlotLength s.slotLength), some (text s.domain), some (text s.currency),
        some (text s.energyUnit), some (list (s.points.map ofPoint))] := by
    simp [ofPublication, publicationNames, fields?, member?]
  rw [toPublication, fields]
  simp only [required, toText, toPoints, hcreated, hstart, hstop, hlength, hpoints]
  rfl

/-! ## Contracts -/

/-- **Contracts survive.** -/
theorem survives_contract {zones : String → Option Zone} {c : Contract}
    (writable : c.IsWritable zones) :
    Survives ofContract (toContract zones) Contract.Alike c := by
  have stated : ∀ {q : Option Quantity}, (∀ x, q = some x → x ∈ c.quantities) →
      ∃ b, toOption toQuantity (some (ofOption (q.map ofQuantity))) = .ok b ∧
        Option.Rel Quantity.Alike q b := fun among =>
    Survives.option (fun _ => nofun) fun x some =>
      survives_quantity (writable.quantities x (among x some))
  obtain ⟨transfer, htransfer, transfers⟩ := stated (q := c.transfer) fun x some => by
    simp [Contract.quantities, some]
  obtain ⟨tax, htax, taxes⟩ := stated (q := c.tax) fun x some => by simp [Contract.quantities, some]
  obtain ⟨margin, hmargin, margins⟩ := stated (q := c.margin) fun x some => by
    simp [Contract.quantities, some]
  obtain ⟨sellerRate, hseller, sellers⟩ := stated (q := c.sellerRate) fun x some => by
    simp [Contract.quantities, some]
  obtain ⟨generalRate, hgeneral, generals⟩ := survives_quantity
    (writable.quantities c.generalRate (by simp [Contract.quantities]))
  obtain ⟨zone, hzone, rfl⟩ := survives_zone writable.zone
  obtain ⟨precision, hprecision, rfl⟩ := survives_precision c.precision
  have currency : toOption toText (some (ofOption (c.currency.map text))) = .ok c.currency := by
    cases c.currency <;> rfl
  refine ⟨{ c with transfer, tax, margin, generalRate, sellerRate }, ?_,
    ⟨transfers, taxes, margins, rfl, generals, sellers, rfl, rfl, rfl, rfl, rfl⟩⟩
  have fields : (ofContract c).fields? contractNames = some
      [some (ofOption (c.transfer.map ofQuantity)), some (ofOption (c.tax.map ofQuantity)),
        some (ofOption (c.margin.map ofQuantity)), some (bool c.feesIncludeTax),
        some (ofQuantity c.generalRate), some (ofOption (c.sellerRate.map ofQuantity)),
        some (ofOption (c.currency.map text)), some (text c.energyUnit), some (bool c.useSubunit),
        some (ofZone c.zone), some (ofPrecision c.precision)] := by
    simp [ofContract, contractNames, fields?, member?]
  rw [toContract, fields]
  simp only [orElse, toBool, toText, htransfer, htax, hmargin, hgeneral, hseller, currency, hzone,
    hprecision]
  rfl

/-! ## What is read -/

variable {zones : String → Option Zone} {document : Document} {c : Contract} {s : Publication}

/-- A document states the digits of its precision. -/
theorem digits_of_toPrecision {p : Precision} (h : toPrecision document = .ok p) :
    document.stated? ["precision", "rounding"] "precision" = some (integer p.digits) := by
  obtain ⟨mode, fields, -⟩ := toPrecision_eq_ok.mp h
  rw [stated?, fields]
  rfl

/-- **The precision of a contract** that is read keeps from one to twenty-eight digits.  They are
those that the document states, if it states a precision. -/
theorem precision_of_toContract (h : toContract zones document = .ok c) :
    (1 ≤ c.precision.digits ∧ c.precision.digits ≤ 28) ∧
      match document.stated? contractNames "math_context" with
      | some context =>
        context.stated? ["precision", "rounding"] "precision" = some (integer c.precision.digits)
      | none => c.precision = .sixteen := by
  refine ⟨⟨c.precision.digits_pos, c.precision.digits_le⟩, ?_⟩
  rw [toContract] at h
  split at h
  · next context fields =>
      simp only [Outcome.bind_eq_ok, Outcome.pure_eq_ok] at h
      obtain ⟨_, -, _, -, _, -, _, -, _, -, _, -, _, -, _, -, _, -, _, -, p, hp, rfl⟩ := h
      have states : document.stated? contractNames "math_context" = context := by
        rw [stated?, fields]
        rfl
      rw [states]
      cases context with
      | none => exact (Except.ok.inj hp).symm
      | some context => exact digits_of_toPrecision hp
  · cases h

/-- **The slot length of a publication** that is read has some minutes, those that the document
states. -/
theorem slotLength_of_toPublication (h : toPublication document = .ok s) :
    0 < s.slotLength.minutes ∧ ∃ stated rest,
      document.stated? publicationNames "resolution" = some (text stated) ∧
        Text.trim stated.toList = 'P' :: rest ∧
        SlotLength.readMinutes? rest = some s.slotLength.minutes := by
  refine ⟨s.slotLength.minutes_pos, ?_⟩
  rw [toPublication] at h
  split at h
  · next fields =>
      simp only [Outcome.bind_eq_ok, Outcome.pure_eq_ok] at h
      obtain ⟨_, -, _, -, _, -, length, there, _, -, _, -, _, -, _, -, rfl⟩ := h
      obtain ⟨_, rfl, isText⟩ := required_eq_ok.mp there
      obtain ⟨stated, rfl, read⟩ := toSlotLength_eq_ok.mp isText
      obtain ⟨rest, start, minutes⟩ := SlotLength.read_eq_ok.mp read
      refine ⟨stated, rest, ?_, start, minutes⟩
      rw [stated?, fields]
      rfl
  · cases h

/-- A contract with a negative fee per kilowatt hour squared, and terms that are not the usual
ones. -/
def degressive : Contract where
  transfer := some ⟨(Decimal.ofDigits 340 2).negate,
    (MeasureUnit.pricePer "EUR" true .kilowattHour).divide .kilowattHour⟩
  generalRate := ⟨.ofDigits 255 1, .percent⟩
  currency := some "EUR"
  zone := .helsinki
  precision := ⟨20, .floor, by decide, by decide⟩

/-- A publication made in a leap second, for slots of an hour and a half before the year zero. -/
def ancient : Publication :=
  { Publication.threeHours with
    created := ⟨1483228799, 1500000000, by decide, by decide, by decide⟩
    start := ⟨-62167305600, 250000000, by decide, by decide, by decide⟩
    stop := ⟨-62167300200, 250000000, by decide, by decide, by decide⟩
    slotLength := ⟨90, by decide, by decide⟩
    points := [⟨1, (Decimal.ofDigits 10049 2).negate⟩] }

/-- A contract with a fee in the least power of euros. -/
def leastPower : Contract where
  transfer := some ⟨.zero, (MeasureUnit.money "EUR" false).pow Factors.leastExponent⟩

end Document

end Tariff
