import Tariff.Measure.Dimension

/-!
# The text of a dimension

## Main definitions

* `Dimension.text` — the written form, such as `[¤]·[T]²/[M]`
* `Dimension.readBase` — a base from its symbol
* `Dimension.read` — a dimension from its written form

## Design notes

A reader accepts more than is written: a star for a dot, an exponent behind a caret, blanks around
the factors, and a base more than once.
-/

namespace Tariff.Dimension

/-- **Written form** of a dimension. -/
def text : Dimension → String
  | base symbol => symbol
  | product powers => Factors.text powers

/-- Whether a symbol is one character in square brackets; the character must not be blank. -/
def isBaseSymbol (symbol : List Char) : Bool :=
  match symbol with
  | ['[', inner, ']'] => !Text.isBlank inner
  | _ => false

/-- The base with the given symbol. -/
def readBase (symbol : String) : Measured Dimension :=
  if isBaseSymbol symbol.toList then .ok (base symbol) else .error (.invalidDimension symbol)

/-- The symbol at the start of a factor, up to its closing bracket, and the text behind it. -/
def splitSymbol : List Char → Option (List Char × List Char)
  | [] => Option.none
  | c :: rest =>
    if c = ']' then some ([c], rest)
    else (splitSymbol rest).map fun (symbol, suffix) => (c :: symbol, suffix)

/-- The exponent that a text behind a symbol states. -/
def readSuffix? : List Char → Option Int
  | [] => some 1
  | '^' :: exponent => Text.readExponent? exponent
  | raised => Text.readSuperscript? raised

/-- A factor: a base symbol and its exponent. -/
def readFactor (factor : List Char) : Measured (String × Int) :=
  match splitSymbol factor with
  | Option.none => .error (.invalidDimension (String.ofList factor))
  | some (symbol, suffix) =>
    if isBaseSymbol symbol then
      match readSuffix? suffix with
      | some exponent => .ok (String.ofList symbol, exponent)
      | Option.none => .error (.invalidDimension (String.ofList factor))
    else
      .error (.invalidDimension (String.ofList symbol))

/-- The factors on one side of the line; a lone `1` stands for none. -/
def readSide (side : List Char) : Measured Powers :=
  let side := Text.trim side
  if side = ['1'] then .ok []
  else (Text.pieces Factors.separates side).mapM fun piece => readFactor (Text.trim piece)

/-- A dimension from its characters. -/
def readChars (text : List Char) : Measured Dimension :=
  let text := Text.trim text
  if text.isEmpty then .error (.invalidDimension "")
  else
    match Text.cutAt Factors.isLine text with
    | (above, Option.none) => ofPowers <$> readSide above
    | (above, some below) => do
      let positive ← readSide above
      let negative ← readSide below
      return ofPowers (positive ++ negative.scale (-1))

/-- **Reading.**  The dimension that a text denotes. -/
def read (text : String) : Measured Dimension :=
  readChars text.toList

example : energy.text = "[L]²·[M]/[T]²" := by decide

example : (read "[L]^2*[M]/[T]^2").toOption = some energy := by decide

end Tariff.Dimension
