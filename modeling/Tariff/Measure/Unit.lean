import Tariff.Decimal.Basic
import Tariff.Measure.Dimension

/-!
# Units of measure

A unit is a root unit of its dimension, a decimal multiple of another unit, or a product of powers
of units.

## Main definitions

* `MeasureUnit` — root units, multiples and products
* `MeasureUnit.same` — units that are built alike
* `MeasureUnit.product` — the product of powers of units, in normal form
* `MeasureUnit.multiply`, `divide`, `pow`, `inverse` — the algebra of units
* `MeasureUnit.heldProduct` — the product of terms whose exponents are held in 32 bits

## Design notes

A product keeps its terms in the order in which they were first named, those above the line before
those below it.  It holds no product, no unit one and no unit twice.  Symbol, name and dimension
of a product are made from its terms when it is built and are kept with it.

Exponents are whole numbers without a bound.  Where they come from outside they are held in 32 bits,
and wrap around when they leave this range.

Two units are `same` when they are built alike, where the factors of multiples count by value:
a hundredth may be written `0.01` or `0.010`.
-/

namespace Tariff

/-- A unit of measure. -/
inductive MeasureUnit where
  /-- A root unit of a dimension. -/
  | primitive (symbol name : String) (dimension : Dimension)
  /-- A decimal multiple of another unit. -/
  | scaled (symbol name : String) (base : MeasureUnit) (factor : Decimal)
  /-- A product of powers of units. -/
  | derived (terms : List (MeasureUnit × Int)) (symbol name : String) (dimension : Dimension)

namespace MeasureUnit

/-- The symbol that stands behind a value. -/
def symbol : MeasureUnit → String
  | primitive symbol _ _ => symbol
  | scaled symbol _ _ _ => symbol
  | derived _ symbol _ _ => symbol

/-- The name in words. -/
def name : MeasureUnit → String
  | primitive _ name _ => name
  | scaled _ name _ _ => name
  | derived _ _ name _ => name

/-- What the unit measures; a multiple measures what its base measures. -/
def dimension : MeasureUnit → Dimension
  | primitive _ _ dimension => dimension
  | scaled _ _ base _ => base.dimension
  | derived _ _ _ dimension => dimension

/-- The unit of plain numbers. -/
def one : MeasureUnit := primitive "one" "one" Dimension.none

/-- Whether a unit is a unit of plain numbers that has no effect in a product. -/
def isOne : MeasureUnit → Bool
  | primitive symbol _ dimension => symbol == "one" && dimension.isNone
  | _ => false

/-- Whether two units measure the same. -/
def compatible (a b : MeasureUnit) : Bool :=
  a.dimension == b.dimension

/-! ## Units built alike -/

mutual

/-- **Sameness.**  Whether two units are built alike, with factors of equal value. -/
def same : MeasureUnit → MeasureUnit → Bool
  | primitive s n d, primitive t m e => s == t && n == m && d == e
  | scaled s n u f, scaled t m v g => s == t && n == m && u.same v && f.sameValue g
  | derived us s n d, derived vs t m e => sameTerms us vs && s == t && n == m && d == e
  | _, _ => false

/-- Whether two lists of terms are built alike. -/
def sameTerms : List (MeasureUnit × Int) → List (MeasureUnit × Int) → Bool
  | [], [] => true
  | (u, e) :: us, (v, f) :: vs => u.same v && e == f && sameTerms us vs
  | _, _ => false

end

/-! ## Products -/

/-- The terms that a unit brings into a product. -/
def factors : MeasureUnit → List (MeasureUnit × Int)
  | derived terms _ _ _ => terms
  | unit => if unit.isOne then [] else [(unit, 1)]

/-- The terms of a product of powers, one after the other; a power of zero brings none. -/
def flatten (terms : List (MeasureUnit × Int)) : List (MeasureUnit × Int) :=
  terms.flatMap fun (unit, e) =>
    if e = 0 then [] else unit.factors.map fun (factor, f) => (factor, f * e)

/-- A further power of a unit: added to the exponent of the same unit, or put at the end. -/
def absorb (unit : MeasureUnit) (exponent : Int) :
    List (MeasureUnit × Int) → List (MeasureUnit × Int)
  | [] => [(unit, exponent)]
  | (other, e) :: rest =>
    if other.same unit then (other, e + exponent) :: rest
    else (other, e) :: absorb unit exponent rest

/-- The terms with each unit once, where it was first named; an exponent may be zero. -/
def merge (terms : List (MeasureUnit × Int)) : List (MeasureUnit × Int) :=
  terms.foldl (fun merged (unit, e) => absorb unit e merged) []

/-- The terms above the line, and then those below it. -/
def arrange (terms : List (MeasureUnit × Int)) : List (MeasureUnit × Int) :=
  (terms.filter fun (_, e) => 0 < e) ++ (terms.filter fun (_, e) => e < 0)

/-- The dimension of a product. -/
def dimensionOf (terms : List (MeasureUnit × Int)) : Dimension :=
  terms.foldl (fun d (unit, e) => d.multiply (unit.dimension.pow e)) Dimension.none

/-- The symbol of a product. -/
def symbolOf (terms : List (MeasureUnit × Int)) : String :=
  Factors.text (terms.map fun (unit, e) => (unit.symbol, e))

/-- The name of a product. -/
def nameOf (terms : List (MeasureUnit × Int)) : String :=
  Factors.text (terms.map fun (unit, e) => (unit.name, e))

/-- The unit with the given terms, which are already arranged. -/
def ofTerms (terms : List (MeasureUnit × Int)) : MeasureUnit :=
  match terms with
  | [] => one
  | [(unit, 1)] => unit
  | terms => derived terms (symbolOf terms) (nameOf terms) (dimensionOf terms)

/-- **Normal form.**  The product of powers of units.  The empty product is the unit of plain
numbers, and the first power of one unit is that unit. -/
def product (terms : List (MeasureUnit × Int)) : MeasureUnit :=
  ofTerms (arrange (merge (flatten terms)))

/-- The product of two units. -/
def multiply (a b : MeasureUnit) : MeasureUnit :=
  product [(a, 1), (b, 1)]

/-- The quotient of two units. -/
def divide (a b : MeasureUnit) : MeasureUnit :=
  product [(a, 1), (b, -1)]

/-- A unit to an integer power. -/
def pow (unit : MeasureUnit) (n : Int) : MeasureUnit :=
  product [(unit, n)]

/-- One over a unit. -/
def inverse (unit : MeasureUnit) : MeasureUnit :=
  unit.pow (-1)

/-! ## Exponents of 32 bits -/

/-- Terms with their exponents wrapped into 32 bits; a power that vanishes is left out. -/
def held (terms : List (MeasureUnit × Int)) : List (MeasureUnit × Int) :=
  (terms.map fun (unit, e) => (unit, e.bmod 4294967296)).filter fun (_, e) => e ≠ 0

/-- **Product in 32 bits.**  The product of terms whose exponents are multiplied out and added up in
32 bits. -/
def heldProduct (terms : List (MeasureUnit × Int)) : MeasureUnit :=
  product (held (merge (held (flatten terms))))

/-! ## Money in a unit -/

mutual

/-- **Currency.**  The symbol of the first root unit of money that a unit is built from. -/
def currencyCode : MeasureUnit → Option String
  | primitive symbol _ dimension => if dimension = Dimension.currency then some symbol else none
  | scaled _ _ base _ => base.currencyCode
  | derived terms _ _ _ => currencyOfTerms terms

/-- The currency of the first term that has one. -/
def currencyOfTerms : List (MeasureUnit × Int) → Option String
  | [] => none
  | (unit, _) :: rest =>
    match unit.currencyCode with
    | some code => some code
    | none => currencyOfTerms rest

end

/-! ## Sameness holds of a unit and itself -/

mutual

/-- Every unit is built like itself. -/
theorem same_self : (unit : MeasureUnit) → unit.same unit = true
  | primitive _ _ _ => by simp [same]
  | scaled _ _ base factor => by
    have h := same_self base
    simp [same, h, Decimal.sameValue, Decimal.compare]
  | derived terms _ _ _ => by
    have h := sameTerms_self terms
    simp [same, h]

/-- Every list of terms is built like itself. -/
theorem sameTerms_self : (terms : List (MeasureUnit × Int)) → sameTerms terms terms = true
  | [] => by simp [sameTerms]
  | (unit, _) :: rest => by
    have h := same_self unit
    have r := sameTerms_self rest
    simp [sameTerms, h, r]

end

end MeasureUnit

end Tariff
