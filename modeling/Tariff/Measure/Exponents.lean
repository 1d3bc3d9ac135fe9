import Tariff.Text.Numeral
import Tariff.Text.Order

/-!
# Exponents of symbols

A product of powers of symbols is a list of symbols with their exponents.  Its normal form is
ordered by symbol, names each symbol once, and names none whose exponent is zero.  Dimensions and
units write such a product in the same way: the factors above the line with dots between them, and
behind a slash those below the line.

## Main definitions

* `Powers` — symbols with exponents, in any order and with repetitions
* `Powers.exponentOf` — the exponent of one symbol, summed over its occurrences
* `Powers.collect` — the normal form
* `Factors.isShown` — the exponents that are written
* `Factors.factor` — one label with its raised exponent
* `Factors.text` — all labels with their exponents

## Main statements

* `Powers.exponentOf_collect` — the normal form has the same exponents
* `Powers.exponentOf_append`, `Powers.exponentOf_scale` — products and powers

## Design notes

An exponent of one is not written, and the sign of an exponent shows only in the side of the slash
on which it stands.  Sizes are taken in 32 bits, where that of the least exponent is the negative
number itself: it is not written either.  With nothing above the line, a `1` stands there.
-/

namespace Tariff

/-- Symbols with exponents. -/
abbrev Powers := List (String × Int)

namespace Powers

/-- The exponent of a symbol: the sum over all its occurrences. -/
def exponentOf (powers : Powers) (symbol : String) : Int :=
  match powers with
  | [] => 0
  | (other, e) :: rest => (if other = symbol then e else 0) + exponentOf rest symbol

/-- All exponents times a number. -/
def scale (powers : Powers) (n : Int) : Powers :=
  powers.map fun (symbol, e) => (symbol, e * n)

/-- A further power of one symbol, put into ordered powers. -/
def insert (symbol : String) (exponent : Int) : Powers → Powers
  | [] => [(symbol, exponent)]
  | (other, e) :: rest =>
    match Text.order symbol other with
    | .lt => (symbol, exponent) :: (other, e) :: rest
    | .eq => (other, exponent + e) :: rest
    | .gt => (other, e) :: insert symbol exponent rest

/-- The powers ordered by symbol, each symbol once; an exponent may still be zero. -/
def ordered : Powers → Powers
  | [] => []
  | (symbol, e) :: rest => insert symbol e (ordered rest)

/-- **Normal form.**  The powers ordered by symbol, each symbol once, without zero exponents. -/
def collect (powers : Powers) : Powers :=
  (ordered powers).filter fun (_, e) => e ≠ 0

/-- No symbol has an exponent in the empty product. -/
@[simp]
theorem exponentOf_nil (symbol : String) : exponentOf [] symbol = 0 := rfl

/-- A power counts for its own symbol. -/
@[simp]
theorem exponentOf_cons (other symbol : String) (e : Int) (rest : Powers) :
    exponentOf ((other, e) :: rest) symbol =
      (if other = symbol then e else 0) + exponentOf rest symbol := rfl

/-- The exponent in a product is the sum of the exponents. -/
theorem exponentOf_append (a b : Powers) (symbol : String) :
    exponentOf (a ++ b) symbol = exponentOf a symbol + exponentOf b symbol := by
  induction a with
  | nil => simp
  | cons head rest ih =>
    obtain ⟨other, e⟩ := head
    simp [ih]
    omega

/-- The exponent in a power is a multiple of the exponent. -/
theorem exponentOf_scale (powers : Powers) (n : Int) (symbol : String) :
    exponentOf (scale powers n) symbol = exponentOf powers symbol * n := by
  induction powers with
  | nil => simp [scale]
  | cons head rest ih =>
    obtain ⟨other, e⟩ := head
    simp only [scale, List.map_cons, exponentOf_cons] at ih ⊢
    rw [ih, Int.add_mul]
    split <;> simp

/-- Inserting a power adds its exponent and leaves the others. -/
theorem exponentOf_insert (symbol : String) (exponent : Int) (powers : Powers) (s : String) :
    exponentOf (insert symbol exponent powers) s =
      (if symbol = s then exponent else 0) + exponentOf powers s := by
  induction powers with
  | nil => simp [insert]
  | cons head rest ih =>
    obtain ⟨other, e⟩ := head
    simp only [insert]
    split
    · simp
    · next h =>
      have : symbol = other := (Text.order_eq_iff symbol other).mp h
      subst this
      simp only [exponentOf_cons]
      split <;> omega
    · simp only [exponentOf_cons, ih]
      omega

/-- Ordering keeps every exponent. -/
theorem exponentOf_ordered (powers : Powers) (symbol : String) :
    exponentOf (ordered powers) symbol = exponentOf powers symbol := by
  induction powers with
  | nil => rfl
  | cons head rest ih =>
    obtain ⟨other, e⟩ := head
    simp [ordered, exponentOf_insert, ih]

/-- Leaving out zero exponents keeps every exponent. -/
theorem exponentOf_filter (powers : Powers) (symbol : String) :
    exponentOf (powers.filter fun (_, e) => e ≠ 0) symbol = exponentOf powers symbol := by
  induction powers with
  | nil => rfl
  | cons head rest ih =>
    obtain ⟨other, e⟩ := head
    by_cases h : e = 0
    · simp [h, ← ih]
    · simp [h, ← ih]

/-- The normal form has the exponents of the powers it was made from. -/
theorem exponentOf_collect (powers : Powers) (symbol : String) :
    exponentOf (collect powers) symbol = exponentOf powers symbol := by
  simp only [collect, exponentOf_filter, exponentOf_ordered]

/-- No exponent of a normal form is zero. -/
theorem ne_zero_of_mem_collect {powers : Powers} {symbol : String} {e : Int}
    (h : (symbol, e) ∈ collect powers) : e ≠ 0 := by
  simpa [collect] using (List.mem_filter.mp h).2

end Powers

/-! ### The text of a product -/

namespace Factors

/-- Between two factors on one side of the line. -/
def dot : Char := '·'

/-- The least exponent of 32 bits. -/
def leastExponent : Int := -2147483648

/-- Whether an exponent is written behind its label. -/
def isShown (exponent : Int) : Bool :=
  1 < exponent.natAbs && exponent != leastExponent

/-- A label raised to a power; the sign of the exponent is not shown. -/
def factor (label : String) (exponent : Int) : List Char :=
  if isShown exponent then label.toList ++ Text.superscript exponent.natAbs else label.toList

/-- Factors with dots between them. -/
def side (factors : List (String × Int)) : List Char :=
  [dot].intercalate (factors.map fun (label, e) => factor label e)

/-- The product as a list of characters. -/
def chars (factors : List (String × Int)) : List Char :=
  let above := factors.filter fun (_, e) => 0 < e
  let below := factors.filter fun (_, e) => e < 0
  (if above.isEmpty then ['1'] else side above) ++
    (if below.isEmpty then [] else '/' :: side below)

/-- **Written form.**  The factors with positive exponents, and behind a slash the others. -/
def text (factors : List (String × Int)) : String :=
  String.ofList (chars factors)

/-- A character between two factors: the dot, or the star in its place. -/
def separates (c : Char) : Bool :=
  c == dot || c == '*'

/-- The line between the factors above and below. -/
def isLine (c : Char) : Bool :=
  c == '/'

example : text [("c", 1), ("kWh", -2)] = "c/kWh²" := by decide

example : text [("h", -1)] = "1/h" := by decide

end Factors

end Tariff
