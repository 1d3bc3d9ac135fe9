import Tariff.Text.Hidden

/-!
# Errors of measures

## Main definitions

* `MeasureError` — what can be wrong with a dimension, a unit, a quantity or a calculation
* `MeasureError.message` — the wording of each error

## Design notes

An error carries what caused it; the wording stands in one function, apart from the causes.
-/

namespace Tariff

/-- What can be wrong in work with measures. -/
inductive MeasureError where
  /-- Quantities of two dimensions cannot be added or compared. -/
  | dimensionMismatch (left right : String)
  /-- No factor leads from one unit to the other. -/
  | unconvertible (source target : String)
  /-- A symbol does not name a unit. -/
  | unknownUnit (symbol : String)
  /-- A root does not divide an exponent. -/
  | indivisibleExponent (exponent root : Int)
  /-- A text does not name a dimension. -/
  | invalidDimension (text : String)
  /-- The divisor is zero. -/
  | divisionByZero
  /-- A result has no room in a decimal. -/
  | overflow
  /-- A number of digits that no calculation can have. -/
  | invalidPrecision (digits : Nat)
  /-- A text is not a value with a unit. -/
  | invalidQuantity (input reason : String)
deriving DecidableEq

namespace MeasureError

/-- What is said about an error. -/
def message : MeasureError → String
  | dimensionMismatch left right => "dimension mismatch: " ++ left ++ " vs " ++ right
  | unconvertible source target => "cannot convert " ++ source ++ " to " ++ target
  | unknownUnit symbol => "unknown unit: " ++ symbol
  | indivisibleExponent exponent root =>
    "exponent " ++ toString exponent ++ " is not divisible by root " ++ toString root
  | invalidDimension text => "invalid dimension: " ++ text
  | divisionByZero => "division by zero"
  | overflow => "numeric overflow"
  | invalidPrecision digits =>
    "invalid precision: " ++ toString digits ++ " (expected 1..=28)"
  | invalidQuantity input reason =>
    "invalid quantity " ++ String.ofList (Text.quote input.toList) ++ ": " ++ reason

end MeasureError

/-- A result, or what was wrong. -/
abbrev Measured (α : Type) := Except MeasureError α

/-- A result for which there was room, or the error that there was none. -/
def Measured.orOverflow {α : Type} : Option α → Measured α
  | some a => .ok a
  | none => .error .overflow

end Tariff
