import Tariff.Decimal.Notation
import Tariff.Measure.Error
import Tariff.Text.Order

/-!
# Precision of calculations

A calculation keeps a fixed number of significant digits and rounds in a fixed mode.

## Main definitions

* `Precision` — the digits that are kept and the mode of rounding
* `Precision.round`, `add`, `subtract`, `multiply`, `divide` — decimals under a precision
* `RoundingMode.read?`, `RoundingMode.name` — the names of the modes

## Design notes

Each operation first takes the exact result as far as a decimal can hold it, and then rounds to
the digits of the precision.  All digits are written, so that a result shows how precise it is.
-/

namespace Tariff

namespace RoundingMode

/-- The name of a mode, in capital letters. -/
def name : RoundingMode → String
  | up => "UP"
  | down => "DOWN"
  | ceiling => "CEILING"
  | floor => "FLOOR"
  | halfUp => "HALF_UP"
  | halfDown => "HALF_DOWN"
  | halfEven => "HALF_EVEN"

/-- The text in capital letters, with a low line for each hyphen. -/
def spelledOut (text : String) : String :=
  String.ofList (text.toList.map fun c => if c = '-' then '_' else c.toUpper)

/-- The mode that a text names.  Case does not matter, and a hyphen is as good as a low line. -/
def read? (text : String) : Option RoundingMode :=
  all.find? fun mode => mode.name == spelledOut text

/-- What is said about a text that names no mode. -/
def unknownMessage (text : String) : String :=
  "unknown rounding mode: " ++ text

end RoundingMode

/-- How precisely a calculation is done. -/
structure Precision where
  /-- The number of significant digits that are kept. -/
  digits : Nat
  /-- What happens to the digits behind them. -/
  mode : RoundingMode
  /-- At least one digit is kept. -/
  digits_pos : 1 ≤ digits := by decide
  /-- No more digits are kept than a decimal always has room for. -/
  digits_le : digits ≤ 28 := by decide

namespace Precision

/-- Precisions are equal when they keep equally many digits in one mode. -/
theorem eq_iff (p q : Precision) : p = q ↔ p.digits = q.digits ∧ p.mode = q.mode := by
  obtain ⟨m, a, _, _⟩ := p
  obtain ⟨n, b, _, _⟩ := q
  simp

/-- Equality is decided on the digits and the mode. -/
instance : DecidableEq Precision := fun p q =>
  decidable_of_iff (p.digits = q.digits ∧ p.mode = q.mode) (eq_iff p q).symm

/-- Seven digits, half-even. -/
def seven : Precision := ⟨7, .halfEven, by decide, by decide⟩

/-- Sixteen digits, half-even; used where nothing else is said. -/
def sixteen : Precision := ⟨16, .halfEven, by decide, by decide⟩

/-- All twenty-eight digits, half-even. -/
def full : Precision := ⟨28, .halfEven, by decide, by decide⟩

/-- A precision of some digits, of which there must be from one to twenty-eight. -/
def of (digits : Nat) (mode : RoundingMode) : Measured Precision :=
  if h : 1 ≤ digits ∧ digits ≤ 28 then
    .ok ⟨digits, mode, h.1, h.2⟩
  else
    .error (.invalidPrecision digits)

/-- The same mode with another number of digits. -/
def withDigits (p : Precision) (digits : Nat) : Measured Precision :=
  of digits p.mode

/-- The digits and the mode in words. -/
def text (p : Precision) : String :=
  "precision=" ++ toString p.digits ++ " rounding=" ++ p.mode.name

/-- A number rounded to the digits that are kept. -/
def round (p : Precision) (d : Decimal) : Measured Decimal :=
  .orOverflow (d.roundSignificant? p.mode p.digits)

/-- A number rounded to some places after the point. -/
def roundPlaces (p : Precision) (places : Nat) (d : Decimal) : Decimal :=
  d.roundPlaces p.mode places

/-- A rounded sum. -/
def add (p : Precision) (a b : Decimal) : Measured Decimal :=
  .orOverflow (a.add? b) >>= p.round

/-- A rounded difference. -/
def subtract (p : Precision) (a b : Decimal) : Measured Decimal :=
  .orOverflow (a.subtract? b) >>= p.round

/-- A rounded product. -/
def multiply (p : Precision) (a b : Decimal) : Measured Decimal :=
  .orOverflow (a.multiply? b) >>= p.round

/-- A rounded quotient. -/
def divide (p : Precision) (a b : Decimal) : Measured Decimal :=
  if b.isZero then .error .divisionByZero
  else .orOverflow (a.divide? b) >>= p.round

end Precision

end Tariff
