import Tariff.Measure.Error
import Tariff.Measure.Exponents
import Tariff.Text.Cut
import Tariff.Text.Numeral

/-!
# Dimensions

A dimension is a base, such as length `[L]`, or a product of powers of bases.

## Main definitions

* `Dimension` — a base or a product
* `Dimension.ofPowers` — the dimension with given powers, in normal form
* `Dimension.multiply`, `divide`, `pow`, `inverse`, `root` — the algebra of dimensions

## Main statements

* `Dimension.exponentOf_multiply`, `exponentOf_pow` — the algebra acts on exponents

## Design notes

Every operation ends in `Dimension.ofPowers`, which brings the powers into normal form and takes
the power one of a single base for that base.  Equal dimensions are therefore equal as values.
-/

namespace Tariff

/-- What a quantity measures. -/
inductive Dimension where
  /-- A base, named by a character in square brackets. -/
  | base (symbol : String)
  /-- A product of powers of bases. -/
  | product (powers : Powers)
deriving DecidableEq

namespace Dimension

/-- The powers of bases that make up a dimension. -/
def powers : Dimension → Powers
  | base symbol => [(symbol, 1)]
  | product powers => powers

/-- The exponent of one base. -/
def exponentOf (d : Dimension) (symbol : String) : Int :=
  d.powers.exponentOf symbol

/-- **Normal form.**  The dimension with the given powers, in any order and with repetitions. -/
def ofPowers (powers : Powers) : Dimension :=
  match powers.collect with
  | [(symbol, 1)] => base symbol
  | collected => product collected

/-- The dimension of plain numbers. -/
def none : Dimension := product []

/-- Money. -/
def currency : Dimension := base "[¤]"

/-- Length. -/
def length : Dimension := base "[L]"

/-- Mass. -/
def mass : Dimension := base "[M]"

/-- Time. -/
def time : Dimension := base "[T]"

/-- Energy: mass times the square of a length over a time. -/
def energy : Dimension := ofPowers [("[M]", 1), ("[L]", 2), ("[T]", -2)]

/-- Whether this is the dimension of plain numbers. -/
def isNone (d : Dimension) : Bool :=
  d == none

/-- Whether this is a base. -/
def isBase : Dimension → Bool
  | base _ => true
  | product _ => false

/-- The powers of a product; a base is not taken apart. -/
def decomposition : Dimension → Option Powers
  | base _ => Option.none
  | product powers => some powers

/-- The product of two dimensions. -/
def multiply (a b : Dimension) : Dimension :=
  ofPowers (a.powers ++ b.powers)

/-- A dimension to an integer power. -/
def pow (d : Dimension) (n : Int) : Dimension :=
  ofPowers (d.powers.scale n)

/-- One over a dimension. -/
def inverse (d : Dimension) : Dimension :=
  d.pow (-1)

/-- The quotient of two dimensions. -/
def divide (a b : Dimension) : Dimension :=
  ofPowers (a.powers ++ b.powers.scale (-1))

/-- **Roots.**  The dimension of which this is the `n`-th power.  Without one, the error names the
first exponent that `n` does not divide. -/
def root (d : Dimension) (n : Int) : Measured Dimension :=
  if n = 0 then .error (.indivisibleExponent 1 0)
  else
    match d.powers.find? fun (_, e) => e.tmod n ≠ 0 with
    | some (_, e) => .error (.indivisibleExponent e n)
    | Option.none => .ok (ofPowers (d.powers.map fun (symbol, e) => (symbol, e.tdiv n)))

/-! ## Exponents under the operations -/

/-- The normal form keeps every exponent. -/
theorem exponentOf_ofPowers (powers : Powers) (symbol : String) :
    (ofPowers powers).exponentOf symbol = powers.exponentOf symbol := by
  rw [← Powers.exponentOf_collect powers symbol]
  simp only [ofPowers]
  split
  · next s h => simp [exponentOf, Dimension.powers, h]
  · simp [exponentOf, Dimension.powers]

/-- The exponents of a product are sums. -/
theorem exponentOf_multiply (a b : Dimension) (symbol : String) :
    (a.multiply b).exponentOf symbol = a.exponentOf symbol + b.exponentOf symbol := by
  rw [multiply, exponentOf_ofPowers, Powers.exponentOf_append]
  rfl

/-- The exponents of a power are multiples. -/
theorem exponentOf_pow (d : Dimension) (n : Int) (symbol : String) :
    (d.pow n).exponentOf symbol = d.exponentOf symbol * n := by
  rw [pow, exponentOf_ofPowers, Powers.exponentOf_scale]
  rfl

end Dimension

end Tariff
