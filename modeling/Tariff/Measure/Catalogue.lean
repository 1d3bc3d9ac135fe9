import Tariff.Measure.Unit.Named
import Tariff.Sorting
import Tariff.Text.Cut
import Tariff.Text.Numeral

/-!
# Catalogues of units

A catalogue gives units for symbols, and with them the unit that an expression such as `c/kWh`
denotes.

## Main definitions

* `Catalogue` — symbols and the units they stand for
* `Catalogue.register`, `alias` — entering a unit under its own or another symbol
* `Catalogue.read` — the unit that an expression denotes
* `Catalogue.standard` — the units that are known everywhere

## Main statements

* `Catalogue.find?_enter` — entering a symbol changes what is found for it and for no other

## Design notes

A symbol that is in the catalogue wins over taking the text apart, so that a symbol may contain a
slash or a dot.  Otherwise one slash parts the factors above the line from those below it, and each
factor is a symbol with an exponent, raised or behind a caret.  The exponent of a factor must fit
into 32 bits; their sums need not, and wrap around where they do not.
-/

namespace Tariff

/-- Symbols and the units they stand for. -/
structure Catalogue where
  /-- The entries; each symbol is entered once. -/
  entries : List (String × MeasureUnit)

namespace Catalogue

/-- The catalogue without entries. -/
def empty : Catalogue := ⟨[]⟩

/-- The unit entered for a symbol. -/
def find? (c : Catalogue) (symbol : String) : Option MeasureUnit :=
  c.entries.lookup symbol

/-- The entries with a unit entered for a symbol, in the place of one entered before. -/
def enterInto (symbol : String) (unit : MeasureUnit) :
    List (String × MeasureUnit) → List (String × MeasureUnit)
  | [] => [(symbol, unit)]
  | (other, old) :: rest =>
    if symbol = other then (symbol, unit) :: rest
    else (other, old) :: enterInto symbol unit rest

/-- A unit entered for a symbol. -/
def enter (c : Catalogue) (symbol : String) (unit : MeasureUnit) : Catalogue :=
  ⟨enterInto symbol unit c.entries⟩

/-- A unit entered under its own symbol. -/
def register (c : Catalogue) (unit : MeasureUnit) : Catalogue :=
  c.enter unit.symbol unit

/-- All units of a list, each entered under its own symbol. -/
def registerAll (c : Catalogue) (units : List MeasureUnit) : Catalogue :=
  units.foldl register c

/-- Whether a symbol is entered. -/
def contains (c : Catalogue) (symbol : String) : Bool :=
  (c.find? symbol).isSome

/-- The number of symbols entered. -/
def size (c : Catalogue) : Nat :=
  c.entries.length

/-- The symbols entered, in the order of texts. -/
def symbols (c : Catalogue) : List String :=
  sortBy (fun a b => Text.order a b == .gt) (c.entries.map Prod.fst)

/-- The unit entered for a symbol, or the error that there is none. -/
def lookup (c : Catalogue) (symbol : String) : Measured MeasureUnit :=
  match c.find? symbol with
  | some unit => .ok unit
  | none => .error (.unknownUnit symbol)

/-! ## Expressions -/

/-- The text before the raised digits at its end, and these digits. -/
def splitRaised (factor : List Char) : List Char × List Char :=
  let raised := factor.reverse.takeWhile Text.isSuperscript
  ((factor.reverse.drop raised.length).reverse, raised.reverse)

/-- A factor taken apart into its symbol and its exponent. -/
def splitFactor (factor : List Char) : Measured (List Char × Int) :=
  let bad : MeasureError := .unknownUnit (String.ofList factor)
  match Text.cutAt (· == '^') factor with
  | (symbol, some exponent) =>
    match Text.readExponent? (Text.trim exponent) with
    | some e => .ok (Text.trim symbol, e)
    | none => .error bad
  | (_, none) =>
    match splitRaised factor with
    | (_, []) => .ok (factor, 1)
    | (symbol, raised) =>
      match Text.readSuperscript? raised with
      | some e => .ok (symbol, e)
      | none => .error bad

/-- The unit of a factor and its exponent. -/
def readFactor (c : Catalogue) (factor : List Char) : Measured (MeasureUnit × Int) := do
  let (symbol, e) ← splitFactor factor
  let unit ← c.lookup (String.ofList symbol)
  return (unit, e)

/-- Whether a side of the line stands for no factors. -/
def isUnitySide (side : List Char) : Bool :=
  side == ['1'] || side == ['o', 'n', 'e']

/-- The factors on one side of the line. -/
def readSide (c : Catalogue) (side : List Char) : Measured (List (MeasureUnit × Int)) :=
  let side := Text.trim side
  if isUnitySide side then .ok []
  else (Text.pieces Factors.separates side).mapM fun piece => c.readFactor (Text.trim piece)

/-- The terms of an expression that is not entered as a whole. -/
def readTerms (c : Catalogue) (text : List Char) : Measured (List (MeasureUnit × Int)) :=
  match Text.cutAt Factors.isLine text with
  | (above, none) => c.readSide above
  | (above, some below) => do
    let positive ← c.readSide above
    if (Text.trim below).isEmpty || below.any Factors.isLine then
      .error (.unknownUnit (String.ofList text))
    else do
      let negative ← c.readSide below
      return positive ++ negative.map fun (unit, e) => (unit, -e)

/-- The unit that a list of characters denotes. -/
def readChars (c : Catalogue) (text : List Char) : Measured MeasureUnit :=
  let text := Text.trim text
  match c.find? (String.ofList text) with
  | some unit => .ok unit
  | none =>
    if text.isEmpty then .error (.unknownUnit "")
    else MeasureUnit.heldProduct <$> c.readTerms text

/-- **Reading.**  The unit that an expression denotes. -/
def read (c : Catalogue) (text : String) : Measured MeasureUnit :=
  c.readChars text.toList

/-! ## The standard catalogue -/

/-- The currencies that the standard catalogue knows. -/
def standardCurrencies : List String :=
  ["EUR", "SEK", "NOK", "DKK", "PLN", "CZK", "HUF", "RON", "BGN", "GBP", "CHF", "USD"]

/-- A currency and its hundredth part, the part first. -/
def moneyUnits (code : String) : List MeasureUnit :=
  let currency := MeasureUnit.primitive code code Dimension.currency
  match currency.subunit with
  | .ok part => [part, currency]
  | .error _ => [currency]

/-- The units of the standard catalogue. -/
def standardUnits : List MeasureUnit :=
  [.one, .percent] ++ standardCurrencies.flatMap moneyUnits ++
    [.second, .minute, .hour, .day, .month, .year] ++ MeasureUnit.energyUnits

/-- **Standard catalogue.**  Plain numbers, money, time and energy; `1` is another symbol of the
unit of plain numbers. -/
def standard : Catalogue :=
  (empty.registerAll standardUnits).enter "1" .one

/-! ## What is found after an entry -/

/-- An entry changes what is found for its symbol and for no other. -/
theorem find?_enter (c : Catalogue) (symbol other : String) (unit : MeasureUnit) :
    (c.enter symbol unit).find? other = if other = symbol then some unit else c.find? other := by
  obtain ⟨entries⟩ := c
  simp only [enter, find?]
  induction entries with
  | nil =>
    rw [enterInto, List.lookup_cons]
    by_cases h : other = symbol
    · simp [h]
    · simp [h, beq_eq_false_iff_ne.mpr h]
  | cons head rest ih =>
    obtain ⟨label, old⟩ := head
    by_cases hs : symbol = label
    · subst hs
      rw [enterInto, if_pos rfl, List.lookup_cons, List.lookup_cons]
      by_cases h : other = symbol
      · simp [h]
      · simp [h, beq_eq_false_iff_ne.mpr h]
    · rw [enterInto, if_neg hs, List.lookup_cons, List.lookup_cons]
      by_cases hl : other = label
      · subst hl
        have : ¬ other = symbol := fun e => hs e.symm
        simp [this]
      · simp [beq_eq_false_iff_ne.mpr hl, ih]

end Catalogue

end Tariff
