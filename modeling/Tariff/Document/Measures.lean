import Tariff.Decimal.Shortest
import Tariff.Document.Basic
import Tariff.Measure.Quantity
import Tariff.Pricing.Error

/-!
# Documents of measures

## Main definitions

* `DocumentError` — why a document is not that of a value
* `Document.ofPrecision`, `ofQuantity`, … — the documents of values
* `Document.toPrecision`, `toQuantity`, … — the values of documents

## Design notes

Dimensions, units, quantities and decimals are documents in their written form.  A decimal may also
be a number: a whole one as it stands, a binary floating-point number in its shortest text.
-/

namespace Tariff

/-- Why a document is not that of a value. -/
inductive DocumentError where
  /-- It has another shape, or a member is missing or not readable. -/
  | shape
  /-- Its text is not that of a measure. -/
  | measure (error : MeasureError)
  /-- Its text is not that of a part of a publication. -/
  | pricing (error : PricingError)
  /-- Its text does not name a time zone. -/
  | zone (name : String)
deriving DecidableEq

/-- What is said about a document, if more is known than that it has the wrong shape. -/
def DocumentError.message? : DocumentError → Option String
  | shape => none
  | measure error => some error.message
  | pricing error => some error.message
  | zone name => some ("failed to parse timezone: '" ++ name ++ "'")

/-- The value of a document, or why it has none. -/
abbrev Decoded (α : Type) := Except DocumentError α

namespace Decoded

variable {α : Type}

/-- A value that is there, or else the document has the wrong shape. -/
def ofOption : Option α → Decoded α
  | some a => .ok a
  | none => .error .shape

/-- A measured value. -/
def ofMeasured : Measured α → Decoded α
  | .ok a => .ok a
  | .error e => .error (.measure e)

/-- A value of pricing. -/
def ofPriced : Priced α → Decoded α
  | .ok a => .ok a
  | .error e => .error (.pricing e)

end Decoded

namespace Document

variable {α : Type}

/-! ## Plain values -/

/-- A text. -/
def toText : Document → Decoded String
  | text s => .ok s
  | _ => .error .shape

/-- A truth value. -/
def toBool : Document → Decoded Bool
  | bool b => .ok b
  | _ => .error .shape

/-- The greatest count. -/
def maxCount : Int := 4294967295

/-- A count: a whole number that is not negative and has at most 32 bits. -/
def toCount : Document → Decoded Nat
  | integer n => if 0 ≤ n ∧ n ≤ maxCount then .ok n.toNat else .error .shape
  | _ => .error .shape

/-- A value that may be missing or null. -/
def toOption (read : Document → Decoded α) : Option Document → Decoded (Option α)
  | none => .ok none
  | some null => .ok none
  | some value => some <$> read value

/-- A value that must be there. -/
def required (read : Document → Decoded α) : Option Document → Decoded α
  | none => .error .shape
  | some value => read value

/-- A value with a default for when it is missing. -/
def orElse (fallback : α) (read : Document → Decoded α) : Option Document → Decoded α
  | none => .ok fallback
  | some value => read value

/-! ## Decimals -/

/-- The document of a decimal. -/
def ofDecimal (d : Decimal) : Document := text d.text

/-- The decimal of a document. -/
def toDecimal : Document → Decoded Decimal
  | text s => .ofOption (Decimal.readScaled s).toOption
  | integer n => .ofOption (Decimal.ofParts? (n < 0) n.natAbs 0)
  | fraction negative magnitude => .ofOption (Decimal.ofBinary64? negative magnitude)
  | _ => .error .shape

/-! ## Dimensions, units and quantities -/

/-- The document of a dimension. -/
def ofDimension (d : Dimension) : Document := text d.text

/-- The dimension of a document. -/
def toDimension (document : Document) : Decoded Dimension := do
  let s ← document.toText
  .ofMeasured (Dimension.read s)

/-- The document of a unit. -/
def ofUnit (unit : MeasureUnit) : Document := text unit.symbol

/-- The unit of a document. -/
def toUnit (document : Document) : Decoded MeasureUnit := do
  let s ← document.toText
  .ofMeasured (Catalogue.standard.read s)

/-- The document of a quantity. -/
def ofQuantity (q : Quantity) : Document := text q.text

/-- The quantity of a document. -/
def toQuantity (document : Document) : Decoded Quantity := do
  let s ← document.toText
  .ofMeasured (Quantity.read s)

/-! ## Rounding and precision -/

/-- The name of a mode in small letters. -/
def modeName (mode : RoundingMode) : String :=
  String.ofList (mode.name.toList.map Char.toLower)

/-- The document of a mode. -/
def ofMode (mode : RoundingMode) : Document := text (modeName mode)

/-- The mode with a name in small letters. -/
def modeNamed (name : String) : Decoded RoundingMode :=
  .ofOption (RoundingMode.all.find? fun mode => modeName mode == name)

/-- The mode of a document; a name may also stand as the only member of a record. -/
def toMode : Document → Decoded RoundingMode
  | text s => modeNamed s
  | record [(s, null)] => modeNamed s
  | _ => .error .shape

/-- The document of a precision. -/
def ofPrecision (p : Precision) : Document :=
  record [("precision", integer p.digits), ("rounding", ofMode p.mode)]

/-- The precision of a document; without a mode it is half-even. -/
def toPrecision (document : Document) : Decoded Precision :=
  match document.fields? ["precision", "rounding"] with
  | some [digits, mode] => do
    let digits ← required toCount digits
    let mode ← orElse .halfEven toMode mode
    .ofMeasured (Precision.of digits mode)
  | _ => .error .shape

end Document

end Tariff
