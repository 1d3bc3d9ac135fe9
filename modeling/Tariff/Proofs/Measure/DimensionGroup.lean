import Mathlib.Data.Finsupp.Defs
import Mathlib.Tactic.Ring
import Tariff.Proofs.Measure.DimensionText

/-!
# The group of dimensions

A dimension is a product of powers of bases.  With one value for each choice of exponents, dimensions
make the free abelian group on the bases.

## Main definitions

* `Dimension.IsObtained` — dimensions that the constructors, the reader and the algebra give out
* `Dimension.IsCanonical` — the one form in which a dimension is stored

## Main statements

* `Dimension.isObtained_iff` — nothing is given out but what is made from bases
* `Dimension.IsNormal.isCanonical` — normal forms are canonical
* `Dimension.existsUnique` — exponents can be chosen freely, and determine the dimension
* `Dimension.free_abelian` — the laws of the group

## Design notes

A law is an equation between exponents, and these are added and multiplied symbol by symbol.  What
carries a law over to the dimensions themselves is that each operation ends in a normal form and
that a normal form is determined by its exponents.
-/

namespace Tariff

namespace Powers

variable {symbol : String}

/-- Where each symbol is named once, its exponent is the one it is named with, or else zero. -/
theorem exponentOf_map {symbols : List String} (once : symbols.Nodup) (f : String → ℤ) :
    exponentOf (symbols.map fun s => (s, f s)) symbol = if symbol ∈ symbols then f symbol else 0 := by
  induction symbols with
  | nil => rfl
  | cons first rest ih =>
      obtain ⟨fresh, once⟩ := List.nodup_cons.mp once
      rw [List.map_cons, exponentOf_cons, ih once]
      by_cases h : first = symbol
      · subst h
        simp [fresh]
      · simp [h, Ne.symm h]

end Powers

namespace Dimension

variable {a b c d : Dimension} {m n : ℤ}

/-! ## What is given out -/

/-- **Dimensions that are given out**: the bases and the named dimensions, those with given
exponents, those that a text denotes, and what the algebra makes of them. -/
inductive IsObtained : Dimension → Prop
  | base {symbol : String} {d : Dimension} (h : readBase symbol = .ok d) : IsObtained d
  | none : IsObtained none
  | currency : IsObtained currency
  | length : IsObtained length
  | mass : IsObtained mass
  | time : IsObtained time
  | energy : IsObtained energy
  | ofPowers (powers : Powers) : IsObtained (ofPowers powers)
  | read {text : String} {d : Dimension} (h : read text = .ok d) : IsObtained d
  | multiply {a b : Dimension} (ha : IsObtained a) (hb : IsObtained b) : IsObtained (a.multiply b)
  | divide {a b : Dimension} (ha : IsObtained a) (hb : IsObtained b) : IsObtained (a.divide b)
  | pow {d : Dimension} (n : ℤ) (hd : IsObtained d) : IsObtained (d.pow n)
  | root {d r : Dimension} {n : ℤ} (hd : IsObtained d) (h : d.root n = .ok r) : IsObtained r
  | inverse {d : Dimension} (hd : IsObtained d) : IsObtained d.inverse

/-- What a text denotes is brought into normal form. -/
theorem exists_powers_of_read {text : String} (h : read text = .ok d) :
    ∃ powers, d = ofPowers powers := by
  rw [read, readChars] at h
  split at h
  · cases h
  · split at h
    · obtain ⟨powers, -, rfl⟩ := Outcome.map_eq_ok.mp h
      exact ⟨powers, rfl⟩
    · obtain ⟨positive, -, h⟩ := Outcome.bind_eq_ok.mp h
      obtain ⟨negative, -, h⟩ := Outcome.bind_eq_ok.mp h
      exact ⟨_, (Outcome.pure_eq_ok.mp h).symm⟩

/-- **Nothing is given out but what is made from bases.** -/
theorem isObtained_iff : d.IsObtained ↔ d.IsMade := by
  constructor
  · intro h
    induction h with
    | base h => exact .base h
    | none => exact .ofPowers []
    | currency => exact .ofPowers [("[¤]", 1)]
    | length => exact .ofPowers [("[L]", 1)]
    | mass => exact .ofPowers [("[M]", 1)]
    | time => exact .ofPowers [("[T]", 1)]
    | energy => exact .ofPowers _
    | ofPowers powers => exact .ofPowers powers
    | read h =>
        obtain ⟨powers, rfl⟩ := exists_powers_of_read h
        exact .ofPowers powers
    | multiply _ _ ha hb => exact .multiply ha hb
    | divide _ _ ha hb => exact .divide ha hb
    | pow n _ hd => exact .pow n hd
    | root _ h hd => exact .root hd h
    | inverse _ hd => exact .inverse hd
  · intro h
    induction h with
    | base h => exact .base h
    | ofPowers powers => exact .ofPowers powers
    | multiply _ _ ha hb => exact .multiply ha hb
    | divide _ _ ha hb => exact .divide ha hb
    | pow n _ hd => exact .pow n hd
    | inverse _ hd => exact .inverse hd
    | root _ h hd => exact .root hd h

theorem IsObtained.isNormal (h : d.IsObtained) : d.IsNormal :=
  (isObtained_iff.mp h).isNormal

/-! ## The stored form -/

/-- **The form in which a dimension is stored.** -/
structure IsCanonical (d : Dimension) : Prop where
  /-- No exponent is zero. -/
  nonzero : ∀ symbol e, (symbol, e) ∈ d.powers → e ≠ 0
  /-- The powers are in the order of their symbols, each symbol once. -/
  ordered : d.powers.Pairwise Powers.Before
  /-- A single power with the exponent one is a base. -/
  base : ∀ symbol, d.powers = [(symbol, 1)] → d = .base symbol

/-- **Normal forms are canonical.** -/
theorem IsNormal.isCanonical (normal : d.IsNormal) : d.IsCanonical where
  nonzero _ _ mem := normal.ne_zero mem
  ordered := by
    rw [← normal, powers_ofPowers]
    exact Powers.collect_pairwise _
  base symbol single := by
    have stored : d.powers.collect = [(symbol, 1)] := by
      rw [← powers_ofPowers, normal, single]
    rw [← normal, Dimension.ofPowers, stored]
    rfl

/-! ## The laws -/

/-- The exponents of a quotient are differences. -/
theorem exponentOf_divide (a b : Dimension) (symbol : String) :
    (a.divide b).exponentOf symbol = a.exponentOf symbol - b.exponentOf symbol := by
  rw [divide, exponentOf_ofPowers, Powers.exponentOf_append, Powers.exponentOf_scale, mul_neg_one]
  rfl

/-- The exponents of an inverse are the opposite ones. -/
theorem exponentOf_inverse (d : Dimension) (symbol : String) :
    d.inverse.exponentOf symbol = -d.exponentOf symbol := by
  rw [inverse, exponentOf_pow, mul_neg_one]

theorem isNormal_multiply (a b : Dimension) : (a.multiply b).IsNormal :=
  isNormal_ofPowers _

theorem isNormal_divide (a b : Dimension) : (a.divide b).IsNormal :=
  isNormal_ofPowers _

theorem isNormal_pow (d : Dimension) (n : ℤ) : (d.pow n).IsNormal :=
  isNormal_ofPowers _

theorem multiply_assoc (a b c : Dimension) :
    (a.multiply b).multiply c = a.multiply (b.multiply c) := by
  refine eq_of_exponentOf (isNormal_multiply _ _) (isNormal_multiply _ _) fun symbol => ?_
  simp only [exponentOf_multiply]
  ring

theorem multiply_comm (a b : Dimension) : a.multiply b = b.multiply a := by
  refine eq_of_exponentOf (isNormal_multiply _ _) (isNormal_multiply _ _) fun symbol => ?_
  simp only [exponentOf_multiply]
  ring

/-- Plain numbers are the unit of the group. -/
theorem multiply_none (normal : a.IsNormal) : a.multiply none = a := by
  refine eq_of_exponentOf (isNormal_multiply _ _) normal fun symbol => ?_
  rw [exponentOf_multiply, exponentOf_none, add_zero]

theorem multiply_inverse (a : Dimension) : a.multiply a.inverse = none := by
  refine eq_of_exponentOf (isNormal_multiply _ _) IsObtained.none.isNormal fun symbol => ?_
  rw [exponentOf_multiply, exponentOf_inverse, exponentOf_none, add_neg_cancel]

theorem divide_eq (a b : Dimension) : a.divide b = a.multiply b.inverse := by
  refine eq_of_exponentOf (isNormal_divide _ _) (isNormal_multiply _ _) fun symbol => ?_
  rw [exponentOf_divide, exponentOf_multiply, exponentOf_inverse, sub_eq_add_neg]

/-- What is multiplied on is divided out again. -/
theorem multiply_divide (normal : a.IsNormal) (b : Dimension) : (a.multiply b).divide b = a := by
  refine eq_of_exponentOf (isNormal_divide _ _) normal fun symbol => ?_
  rw [exponentOf_divide, exponentOf_multiply, add_sub_cancel_right]

theorem pow_add (d : Dimension) (m n : ℤ) : d.pow (m + n) = (d.pow m).multiply (d.pow n) := by
  refine eq_of_exponentOf (isNormal_pow _ _) (isNormal_multiply _ _) fun symbol => ?_
  simp only [exponentOf_multiply, exponentOf_pow]
  ring

theorem pow_mul (d : Dimension) (m n : ℤ) : d.pow (m * n) = (d.pow m).pow n := by
  refine eq_of_exponentOf (isNormal_pow _ _) (isNormal_pow _ _) fun symbol => ?_
  simp only [exponentOf_pow]
  ring

theorem multiply_pow (a b : Dimension) (n : ℤ) :
    (a.multiply b).pow n = (a.pow n).multiply (b.pow n) := by
  refine eq_of_exponentOf (isNormal_pow _ _) (isNormal_multiply _ _) fun symbol => ?_
  simp only [exponentOf_multiply, exponentOf_pow]
  ring

/-- **Exponents can be chosen freely**, all but finitely many zero, and determine the dimension. -/
theorem existsUnique (f : String →₀ ℤ) :
    ∃! d : Dimension, d.IsObtained ∧ ∀ symbol, d.exponentOf symbol = f symbol := by
  have exponents (symbol : String) :
      (ofPowers (f.support.toList.map fun s => (s, f s))).exponentOf symbol = f symbol := by
    rw [exponentOf_ofPowers, Powers.exponentOf_map f.support.nodup_toList]
    simp [eq_comm]
  refine ⟨_, ⟨.ofPowers _, exponents⟩, ?_⟩
  rintro d ⟨obtained, same⟩
  exact eq_of_exponentOf obtained.isNormal (isNormal_ofPowers _) fun symbol =>
    (same symbol).trans (exponents symbol).symm

/-- **The group of dimensions.**  Dimensions that are given out are stored in one form, are equal
when their exponents are, and make the free abelian group on the bases: with the plain numbers as
its unit, the inverse, the quotient and the powers as its own, and with one dimension for each
choice of exponents. -/
theorem free_abelian (ha : a.IsObtained) (hb : b.IsObtained) (c : Dimension) (m n : ℤ) :
    a.IsCanonical ∧
    (a = b ↔ ∀ symbol, a.exponentOf symbol = b.exponentOf symbol) ∧
    (a.multiply b).multiply c = a.multiply (b.multiply c) ∧
    a.multiply b = b.multiply a ∧
    a.multiply none = a ∧
    a.multiply a.inverse = none ∧
    a.divide b = a.multiply b.inverse ∧
    (a.multiply b).divide b = a ∧
    a.pow (m + n) = (a.pow m).multiply (a.pow n) ∧
    a.pow (m * n) = (a.pow m).pow n ∧
    (a.multiply b).pow n = (a.pow n).multiply (b.pow n) ∧
    ∀ f : String →₀ ℤ, ∃! d : Dimension,
      d.IsObtained ∧ ∀ symbol, d.exponentOf symbol = f symbol := by
  refine ⟨ha.isNormal.isCanonical, ⟨?_, ?_⟩, multiply_assoc a b c, multiply_comm a b,
    multiply_none ha.isNormal, multiply_inverse a, divide_eq a b, multiply_divide ha.isNormal b,
    pow_add a m n, pow_mul a m n, multiply_pow a b n, existsUnique⟩
  · rintro rfl symbol
    rfl
  · exact eq_of_exponentOf ha.isNormal hb.isNormal

/-- Energy per time, with what a text denotes and with the root of an area. -/
theorem free_abelian_energy :
    (∃ speed side, read "[L]/[T]" = .ok speed ∧ (length.pow 2).root 2 = .ok side ∧
      (energy.multiply speed).multiply side = energy.multiply (speed.multiply side) ∧
      (energy.multiply speed).divide speed = energy ∧ energy.divide speed ≠ energy) ∧
    energy.pow (2 + -3) = (energy.pow 2).multiply (energy.pow (-3)) := by
  have speed : read "[L]/[T]" = .ok (ofPowers [("[L]", 1), ("[T]", -1)]) := by decide
  have side : (length.pow 2).root 2 = .ok length := by decide
  obtain ⟨-, -, assoc, -, -, -, -, cancel, power, -⟩ :=
    free_abelian .energy (.read speed) length 2 (-3)
  exact ⟨⟨_, _, speed, side, assoc, cancel, by decide⟩, power⟩

end Dimension

end Tariff
