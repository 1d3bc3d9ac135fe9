import Tariff.Measure.Catalogue
import Tariff.Measure.Conversion
import Tariff.Measure.Dimension.Notation

/-!
# Quantities

A quantity is a decimal value in a unit.

## Main definitions

* `Quantity` — a value and its unit
* `Quantity.convert` — the same quantity in another unit
* `Quantity.add`, `subtract`, `multiply`, `divide`, `compare` — calculation under a precision
* `Quantity.text`, `Quantity.read` — the written form, such as `3.4 c/kWh`

## Design notes

Sums, differences and comparisons are taken in the unit of the left operand, into which the right
one is converted; their operands must measure the same.  Products and quotients take the product
or quotient of the units.
-/

namespace Tariff

/-- A value in a unit. -/
structure Quantity where
  /-- The value. -/
  value : Decimal
  /-- The unit in which the value counts. -/
  unit : MeasureUnit

namespace Quantity

/-- Nothing, in a unit. -/
def zero (unit : MeasureUnit) : Quantity := ⟨.zero, unit⟩

/-- A plain number. -/
def plain (value : Decimal) : Quantity := ⟨value, .one⟩

/-- What the quantity measures. -/
def dimension (q : Quantity) : Dimension := q.unit.dimension

/-- Whether the value is zero. -/
def isZero (q : Quantity) : Bool := q.value.isZero

/-- Whether the value lies below zero. -/
def isNegative (q : Quantity) : Bool := q.value.isNegative

/-- Whether the quantity measures nothing, as a plain number does. -/
def isDimensionless (q : Quantity) : Bool := q.dimension.isNone

/-- Whether two quantities have units built alike and values that are equal. -/
def same (a b : Quantity) : Bool :=
  a.value.sameValue b.value && a.unit.same b.unit

/-! ## Without rounding -/

/-- The sign turned round. -/
def negate (q : Quantity) : Quantity := { q with value := q.value.negate }

/-- The sign taken away. -/
def abs (q : Quantity) : Quantity := { q with value := q.value.abs }

/-- The value without zeros at its end. -/
def strip (q : Quantity) : Quantity := { q with value := q.value.normalize }

/-! ## Under a precision -/

/-- **Conversion.**  The same quantity in another unit. -/
def convert (q : Quantity) (unit : MeasureUnit) (p : Precision) : Measured Quantity := do
  let conversion ← q.unit.conversionTo unit
  let value ← conversion.apply p q.value
  return ⟨value, unit⟩

/-- The value of a quantity in the unit of another one that measures the same. -/
def valueIn (q target : Quantity) (p : Precision) : Measured Decimal :=
  Quantity.value <$> q.convert target.unit p

/-- What is wrong when two quantities do not measure the same. -/
def checkDimension (a b : Quantity) : Measured PUnit :=
  if a.dimension = b.dimension then .ok ⟨⟩
  else .error (.dimensionMismatch a.dimension.text b.dimension.text)

/-- The sum, in the unit of the left operand. -/
def add (a b : Quantity) (p : Precision) : Measured Quantity := do
  checkDimension a b
  let other ← b.valueIn a p
  let value ← p.add a.value other
  return ⟨value, a.unit⟩

/-- The difference, in the unit of the left operand. -/
def subtract (a b : Quantity) (p : Precision) : Measured Quantity := do
  checkDimension a b
  let other ← b.valueIn a p
  let value ← p.subtract a.value other
  return ⟨value, a.unit⟩

/-- The product. -/
def multiply (a b : Quantity) (p : Precision) : Measured Quantity := do
  let value ← p.multiply a.value b.value
  return ⟨value, a.unit.multiply b.unit⟩

/-- The quotient. -/
def divide (a b : Quantity) (p : Precision) : Measured Quantity := do
  let value ← p.divide a.value b.value
  return ⟨value, a.unit.divide b.unit⟩

/-- A multiple by a plain number. -/
def scale (q : Quantity) (factor : Decimal) (p : Precision) : Measured Quantity := do
  let value ← p.multiply q.value factor
  return { q with value }

/-- One over a quantity. -/
def inverse (q : Quantity) (p : Precision) : Measured Quantity := do
  let value ← p.divide .one q.value
  return ⟨value, q.unit.inverse⟩

/-- The value rounded to the digits that are kept. -/
def round (q : Quantity) (p : Precision) : Measured Quantity := do
  let value ← p.round q.value
  return { q with value }

/-- The order of two quantities. -/
def compare (a b : Quantity) (p : Precision) : Measured Ordering := do
  checkDimension a b
  let other ← b.valueIn a p
  return a.value.compare other

/-- Whether a quantity, converted into the unit of another one, is equal to it after rounding.
Quantities that do not convert are not equivalent. -/
def equivalent (a b : Quantity) (p : Precision) : Bool :=
  let verdict : Measured Bool := do
    let converted ← a.valueIn b p
    let x ← p.round converted
    let y ← p.round b.value
    return x.sameValue y
  match verdict with
  | .ok answer => answer
  | .error _ => false

/-! ## Text -/

/-- **Written form.**  The value, and behind a space the symbol of its unit unless the quantity is a
plain number. -/
def text (q : Quantity) : String :=
  if q.unit.isOne then q.value.text else q.value.text ++ " " ++ q.unit.symbol

/-- Whether a character may stand in the value of a quantity, behind its sign. -/
def inValue (c : Char) : Bool :=
  Text.isDigit c || c == '.'

/-- The text of the value at the start of a quantity, and the text behind it. -/
def splitValue : List Char → List Char × List Char
  | [] => ([], [])
  | c :: rest =>
    if c == '-' || c == '+' then (c :: rest.takeWhile inValue, rest.dropWhile inValue)
    else ((c :: rest).takeWhile inValue, (c :: rest).dropWhile inValue)

/-- Whether the text of a value has nothing in it but a sign. -/
def isBareSign (value : List Char) : Bool :=
  value == [] || value == ['-'] || value == ['+']

/-- **Reading.**  The quantity that a text denotes, with its unit looked up in a catalogue. -/
def readIn (catalogue : Catalogue) (input : String) : Measured Quantity :=
  let text := Text.trim input.toList
  if text.isEmpty then .error (.invalidQuantity input "empty input")
  else
    let (number, rest) := splitValue text
    if isBareSign number then .error (.invalidQuantity input "missing numeric value")
    else
      match Decimal.readChars number with
      | .error fault => .error (.invalidQuantity input fault.message)
      | .ok value =>
        let unit := Text.trim rest
        if unit.isEmpty then .ok (plain value)
        else (Quantity.mk value) <$> catalogue.readChars unit

/-- The quantity that a text denotes, with a unit of the standard catalogue. -/
def read (input : String) : Measured Quantity :=
  readIn .standard input

end Quantity

end Tariff
