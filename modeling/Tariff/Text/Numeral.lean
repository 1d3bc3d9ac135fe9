import Tariff.Text.Cut

/-!
# Whole numbers in text

Whole numbers are written with the ten decimal digits, either on the line or raised as
superscripts.

## Main definitions

* `digits`, `readNat?` — a natural number and its digits
* `padded` — digits filled with zeros on the left to a least width
* `signed`, `readSigned?` — an integer with its sign
* `superscript`, `readSuperscript?` — a natural number in raised digits

## Main statements

* `readNat?_digits` — the digits of a number read back as the number

## Design notes

Readers accept leading zeros, which writers never produce.  A bound on the value is put by the
reader of the larger form (`readBounded?`), since the bound belongs to what the number means
there.
-/

namespace Tariff.Text

/-- The ten digits on the line. -/
def isDigit (c : Char) : Bool :=
  '0' ≤ c && c ≤ '9'

/-- The decimal digits of a number, without leading zeros. -/
def digits (n : Nat) : List Char :=
  Nat.toDigits 10 n

/-- The number that a run of digits denotes. -/
def digitsValue (run : List Char) : Nat :=
  Nat.ofDigitChars 10 run 0

/-- A nonempty run of digits, and nothing else, read as a number. -/
def readNat? (text : List Char) : Option Nat :=
  if text.isEmpty || !text.all isDigit then none else some (digitsValue text)

/-- A number written with at least `width` digits. -/
def padded (width n : Nat) : List Char :=
  let run := digits n
  List.replicate (width - run.length) '0' ++ run

/-- An integer: its sign if it is negative, and its digits. -/
def signed (n : Int) : List Char :=
  if n < 0 then '-' :: digits n.natAbs else digits n.natAbs

/-- A text without a leading plus sign, which says nothing about a number. -/
def dropPlus : List Char → List Char
  | '+' :: rest => rest
  | text => text

/-- An optional sign and a nonempty run of digits. -/
def readSigned? : List Char → Option Int
  | '-' :: rest => (readNat? rest).map fun n => -(n : Int)
  | text => (readNat? (dropPlus text)).map fun n => (n : Int)

/-- A number that is at most `limit`; a leading plus sign is allowed. -/
def readBounded? (limit : Nat) (text : List Char) : Option Nat :=
  (readNat? (dropPlus text)).filter (· ≤ limit)

/-- The least and the greatest exponent that a text may state. -/
def exponentRange (n : Int) : Bool :=
  -2147483648 ≤ n && n ≤ 2147483647

/-- A signed exponent in its range of 32 bits. -/
def readExponent? (text : List Char) : Option Int :=
  (readSigned? text).filter exponentRange

/-! ## Raised digits -/

/-- A digit raised as a superscript; any other character stays as it is. -/
def raise (c : Char) : Char :=
  match c with
  | '0' => '⁰'
  | '1' => '¹'
  | '2' => '²'
  | '3' => '³'
  | '4' => '⁴'
  | '5' => '⁵'
  | '6' => '⁶'
  | '7' => '⁷'
  | '8' => '⁸'
  | '9' => '⁹'
  | other => other

/-- The digit on the line that a superscript stands for. -/
def lower? (c : Char) : Option Char :=
  match c with
  | '⁰' => some '0'
  | '¹' => some '1'
  | '²' => some '2'
  | '³' => some '3'
  | '⁴' => some '4'
  | '⁵' => some '5'
  | '⁶' => some '6'
  | '⁷' => some '7'
  | '⁸' => some '8'
  | '⁹' => some '9'
  | _ => none

/-- The ten raised digits. -/
def isSuperscript (c : Char) : Bool :=
  (lower? c).isSome

/-- A number in raised digits. -/
def superscript (n : Nat) : List Char :=
  (digits n).map raise

/-- A nonempty run of raised digits, and nothing else, read as an exponent. -/
def readSuperscript? (text : List Char) : Option Int :=
  (text.mapM lower?).bind readExponent?

/-! ## Reading back -/

/-- Each digit that `digits` writes is a digit. -/
theorem all_isDigit_digits (n : Nat) : (digits n).all isDigit = true := by
  simp only [digits, List.all_eq_true]
  intro c hc
  have := Nat.isDigit_of_mem_toDigits (by decide) (by decide) hc
  simp only [Char.isDigit] at this
  simpa [isDigit, Char.le_def] using this

/-- Every number has a digit. -/
theorem digits_ne_nil (n : Nat) : digits n ≠ [] := by
  intro h
  simpa [digits] using congrArg List.length h

/-- **Reading back.**  The digits of a number denote the number. -/
theorem readNat?_digits (n : Nat) : readNat? (digits n) = some n := by
  have value : digitsValue (digits n) = n := Nat.ofDigitChars_toDigits (by decide) (by decide)
  simp [readNat?, digits_ne_nil, all_isDigit_digits, value]

example : readExponent? ['-', '0', '2'] = some (-2) := by decide

example : readSuperscript? ['¹', '²'] = some 12 := by decide

example : padded 4 23 = ['0', '0', '2', '3'] := by decide

end Tariff.Text
