import Tariff.Decimal.Shortest
import Tariff.Document.Basic
import Tariff.Text.Numeral

/-!
# The text of a document

Documents are written as JSON.

## Main definitions

* `Document.write` — the text of a document, on one line
* `Document.read?` — the document that a text denotes

## Design notes

A reader of a value gives back what it has read and the text behind it.  Values nest, so that the
readers of values, items and members call each other; the length of the text bounds how deep.

A number that is not a whole number of 64 bits is read in two steps.  Its leading digits, as many as
64 bits hold, are a whole number, and digits behind them only count as places.  That number, taken
as a binary one, is then multiplied or divided by a power of ten.  Both steps round, so that the
result may be a neighbour of the binary number that is nearest to the text.
-/

namespace Tariff.Document

/-! ## Writing -/

/-- A hexadecimal number of four digits. -/
def hexChars (n : Nat) : List Char :=
  let run := Nat.toDigits 16 n
  List.replicate (4 - run.length) '0' ++ run

/-- A character as it stands in a text. -/
def escape (c : Char) : List Char :=
  match c with
  | '"' => ['\\', '"']
  | '\\' => ['\\', '\\']
  | '\n' => ['\\', 'n']
  | '\r' => ['\\', 'r']
  | '\t' => ['\\', 't']
  | other => if other.toNat < 0x20 then '\\' :: 'u' :: hexChars other.toNat else [other]

/-- A binary number: the multiple of a power of ten that is its shortest decimal. -/
def writeFraction (negative : Bool) (magnitude : Binary64) : String :=
  let (multiple, power) := magnitude.shortest
  (if negative then "-" else "") ++ String.ofList (Text.digits multiple) ++ "e" ++
    String.ofList (Text.signed power)

/-- A text between quotes. -/
def writeText (text : String) : String :=
  "\"" ++ String.ofList (text.toList.flatMap escape) ++ "\""

mutual

/-- **Writing** a document. -/
def write : Document → String
  | null => "null"
  | bool true => "true"
  | bool false => "false"
  | integer n => String.ofList (Text.signed n)
  | fraction negative magnitude => writeFraction negative magnitude
  | text s => writeText s
  | list items => "[" ++ writeItems true items ++ "]"
  | record members => "\x7b" ++ writeMembers true members ++ "\x7d"

/-- The items of a list, with commas before all but the first. -/
def writeItems (first : Bool) : List Document → String
  | [] => ""
  | item :: rest => (if first then "" else ",") ++ write item ++ writeItems false rest

/-- The members of a record, with commas before all but the first. -/
def writeMembers (first : Bool) : List (String × Document) → String
  | [] => ""
  | (name, value) :: rest =>
    (if first then "" else ",") ++ writeText name ++ ":" ++ write value ++ writeMembers false rest

end

/-! ## Reading -/

/-- The blanks that may stand between the parts of a document. -/
def isGap (c : Char) : Bool :=
  c == ' ' || c == '\t' || c == '\n' || c == '\r'

/-- A text without the blanks at its start. -/
def skipGap (text : List Char) : List Char :=
  text.dropWhile isGap

/-- The value of a hexadecimal digit. -/
def hexValue? (c : Char) : Option Nat :=
  if Text.isDigit c then some (c.toNat - 48)
  else if 'a' ≤ c ∧ c ≤ 'f' then some (c.toNat - 87)
  else if 'A' ≤ c ∧ c ≤ 'F' then some (c.toNat - 55)
  else none

/-- The value of four hexadecimal digits. -/
def hexNumber? (a b c d : Char) : Option Nat := do
  let a ← hexValue? a
  let b ← hexValue? b
  let c ← hexValue? c
  let d ← hexValue? d
  return ((a * 16 + b) * 16 + c) * 16 + d

/-- The character of a code point, if it is one. -/
def charOf? (n : Nat) : Option Char :=
  if h : n.isValidChar then some (Char.ofNatAux n h) else none

/-- The character of an escape of one letter. -/
def escaped? (c : Char) : Option Char :=
  match c with
  | '"' => some '"'
  | '\\' => some '\\'
  | '/' => some '/'
  | 'b' => some '\x08'
  | 'f' => some '\x0c'
  | 'n' => some '\n'
  | 'r' => some '\r'
  | 't' => some '\t'
  | _ => none

/-- The rest of a text behind its opening quote, up to its closing quote. -/
def readQuoted? : List Char → Option (List Char × List Char)
  | [] => none
  | '"' :: rest => some ([], rest)
  | '\\' :: 'u' :: a :: b :: c :: d :: '\\' :: 'u' :: e :: f :: g :: h :: rest =>
    match hexNumber? a b c d, hexNumber? e f g h with
    | some high, some low =>
      if 0xD800 ≤ high ∧ high < 0xDC00 then
        if 0xDC00 ≤ low ∧ low < 0xE000 then
          match charOf? (0x10000 + (high - 0xD800) * 0x400 + (low - 0xDC00)), readQuoted? rest with
          | some char, some (chars, after) => some (char :: chars, after)
          | _, _ => none
        else none
      else
        match charOf? high, readQuoted? ('\\' :: 'u' :: e :: f :: g :: h :: rest) with
        | some char, some (chars, after) => some (char :: chars, after)
        | _, _ => none
    | _, _ => none
  | '\\' :: 'u' :: a :: b :: c :: d :: rest =>
    match (hexNumber? a b c d).bind charOf?, readQuoted? rest with
    | some char, some (chars, after) => some (char :: chars, after)
    | _, _ => none
  | '\\' :: c :: rest =>
    match escaped? c, readQuoted? rest with
    | some char, some (chars, after) => some (char :: chars, after)
    | _, _ => none
  | c :: rest => (readQuoted? rest).map fun (chars, after) => (c :: chars, after)

/-- The characters of numbers. -/
def isNumeric (c : Char) : Bool :=
  Text.isDigit c || c == '-' || c == '+' || c == '.' || c == 'e' || c == 'E'

/-- Whether a whole number is small enough to be taken as one. -/
def isWhole (n : Int) : Bool :=
  -9223372036854775808 ≤ n && n ≤ 18446744073709551615

/-- The power of ten behind a number. -/
def readPower? (text : List Char) : Option Int :=
  match text with
  | [] => some 0
  | c :: rest => if c = 'e' ∨ c = 'E' then Text.readSigned? rest else none

/-- The digits behind the point of a number, and the text behind them. -/
def splitPlaces : List Char → List Char × List Char
  | '.' :: rest => (rest.takeWhile Text.isDigit, rest.dropWhile Text.isDigit)
  | other => ([], other)

/-- The greatest whole number that leading digits may make. -/
def maxLeading : Nat := 18446744073709551615

/-- Leading digits with further digits behind them, as many as there is room for, and how many are
left over. -/
def appendDigits (leading : Nat) : List Char → Nat × Nat
  | [] => (leading, 0)
  | c :: rest =>
    let next := 10 * leading + Text.digitsValue [c]
    if next ≤ maxLeading then appendDigits next rest else (leading, rest.length + 1)

/-- The binary number of the digits before and behind the point and a power of ten.  Where digits
before the point are left over, those behind it are tried again. -/
def binaryOf? (whole places : List Char) (power : Int) : Option Binary64 := do
  let (leading, passed) := appendDigits 0 whole
  let (leading, ignored) := appendDigits leading places
  let b ← Binary64.ofNat? leading
  b.scaleTen? (passed - (places.length - ignored : Nat) + power)

/-- A number from all of its characters. -/
def numberOf? (text : List Char) : Option Document := do
  let negative := text.head? == some '-'
  let unsigned := if negative then text.drop 1 else text
  let whole := unsigned.takeWhile Text.isDigit
  let (places, rest) := splitPlaces (unsigned.dropWhile Text.isDigit)
  let magnitude ← Text.readNat? (whole ++ places)
  let power ← readPower? rest
  let value : Int := if negative then -(magnitude : Int) else magnitude
  if whole.length = unsigned.length ∧ isWhole value ∧ !(negative && magnitude == 0) then
    some (integer value)
  else
    (binaryOf? whole places power).map (fraction negative)

mutual

/-- The value at the start of a text, and the text behind it. -/
def readValue? (fuel : Nat) (text : List Char) : Option (Document × List Char) :=
  match fuel with
  | 0 => none
  | fuel + 1 =>
    match skipGap text with
    | 'n' :: 'u' :: 'l' :: 'l' :: rest => some (null, rest)
    | 't' :: 'r' :: 'u' :: 'e' :: rest => some (bool true, rest)
    | 'f' :: 'a' :: 'l' :: 's' :: 'e' :: rest => some (bool false, rest)
    | '"' :: rest =>
      (readQuoted? rest).map fun (chars, after) => (.text (String.ofList chars), after)
    | '[' :: rest =>
      match skipGap rest with
      | ']' :: after => some (list [], after)
      | _ => (readItems? fuel rest).map fun (items, after) => (list items, after)
    | '{' :: rest =>
      match skipGap rest with
      | '}' :: after => some (record [], after)
      | _ => (readMembers? fuel rest).map fun (members, after) => (record members, after)
    | other =>
      (numberOf? (other.takeWhile isNumeric)).map fun number =>
        (number, other.dropWhile isNumeric)

/-- One or more items up to the closing bracket. -/
def readItems? (fuel : Nat) (text : List Char) : Option (List Document × List Char) :=
  match fuel with
  | 0 => none
  | fuel + 1 =>
    match readValue? fuel text with
    | none => none
    | some (item, after) =>
      match skipGap after with
      | ']' :: rest => some ([item], rest)
      | ',' :: rest => (readItems? fuel rest).map fun (items, after) => (item :: items, after)
      | _ => none

/-- One or more members up to the closing brace. -/
def readMembers? (fuel : Nat) (text : List Char) : Option (List (String × Document) × List Char) :=
  match fuel with
  | 0 => none
  | fuel + 1 =>
    match skipGap text with
    | '"' :: rest =>
      match readQuoted? rest with
      | none => none
      | some (name, after) =>
        match skipGap after with
        | ':' :: rest =>
          match readValue? fuel rest with
          | none => none
          | some (value, after) =>
            match skipGap after with
            | '}' :: rest => some ([(String.ofList name, value)], rest)
            | ',' :: rest =>
              (readMembers? fuel rest).map fun (members, after) =>
                ((String.ofList name, value) :: members, after)
            | _ => none
        | _ => none
    | _ => none

end

/-- **Reading** a document. -/
def read? (text : String) : Option Document :=
  let chars := text.toList
  match readValue? (2 * chars.length + 2) chars with
  | some (value, rest) => if (skipGap rest).isEmpty then some value else none
  | none => none

end Tariff.Document
