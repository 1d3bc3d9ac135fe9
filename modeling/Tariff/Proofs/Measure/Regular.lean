import Tariff.Proofs.Failure
import Tariff.Proofs.Measure.Powers
import Tariff.Proofs.Measure.Roots

/-!
# What products measure

A product keeps its dimension beside its terms.  In units that come about by the
algebra of units the two fit together, and so it can be said of a unit what it
measures and to which roots it reduces without taking it apart.

## Main definitions

* `MeasureUnit.IsRegular` — units built from such that are no products and have a
  dimension in normal form

## Main statements

* `MeasureUnit.exponentOf_dimension_product` — a product measures the product of what
  its factors measure
* `MeasureUnit.dimension_multiply` — a factor that measures nothing changes no dimension
* `MeasureUnit.roots_eq_of_degree` — equal degrees make equal roots
* `MeasureUnit.conversionTo_multiply` — a product with a plain number of any kind is
  converted back, if there is room

## Design notes

Two units may measure the same and still have different roots, as two currencies do.
Of a unit that measures nothing this means that it need not be a plain number: euros
over kronor have no dimension and cannot be told as a fraction.  What decides is
whether the unit is converted into the unit of plain numbers.
-/

namespace Tariff.MeasureUnit

open Outcome

variable {unit a b : MeasureUnit} {terms : List (MeasureUnit × Int)}

/-! ## Dimensions of products -/

/-- The last term of a product is multiplied to what the others measure. -/
theorem dimensionOf_concat (terms : List (MeasureUnit × Int)) (unit : MeasureUnit) (e : Int) :
    dimensionOf (terms ++ [(unit, e)]) = (dimensionOf terms).multiply (unit.dimension.pow e) := by
  rw [dimensionOf, List.foldl_concat]
  rfl

/-- The dimension of a product of terms has the exponents of these terms. -/
theorem exponentOf_dimensionOf (terms : List (MeasureUnit × Int)) (symbol : String) :
    (dimensionOf terms).exponentOf symbol =
      weigh (fun unit => unit.dimension.exponentOf symbol) terms := by
  induction terms using List.reverseRecOn with
  | nil => rfl
  | append_singleton terms last ih =>
      rw [dimensionOf_concat, Dimension.exponentOf_multiply, Dimension.exponentOf_pow, ih,
        weigh_append, weigh, weigh, Int.add_zero]

/-- It is in normal form. -/
theorem isNormal_dimensionOf (terms : List (MeasureUnit × Int)) : (dimensionOf terms).IsNormal := by
  induction terms using List.reverseRecOn with
  | nil => decide
  | append_singleton terms last _ =>
      rw [dimensionOf_concat]
      exact Dimension.isNormal_ofPowers _

theorem exponentOf_dimension_ofTerms (terms : List (MeasureUnit × Int)) (symbol : String) :
    (ofTerms terms).dimension.exponentOf symbol =
      weigh (fun unit => unit.dimension.exponentOf symbol) terms := by
  rcases ofTerms_cases terms with rfl | ⟨unit, rfl⟩ | made
  · rfl
  · rw [ofTerms, weigh_singleton]
  · rw [made]
    exact exponentOf_dimensionOf terms symbol

/-- The unit of plain numbers has no dimension. -/
theorem dimension_of_isOne (plain : unit.isOne = true) : unit.dimension = .none := by
  cases unit with
  | primitive label name dimension =>
      rw [isOne, Bool.and_eq_true, Dimension.isNone, beq_iff_eq, beq_iff_eq] at plain
      exact plain.2
  | scaled _ _ _ _ => cases plain
  | derived _ _ _ _ => cases plain

/-- **Regular units** are built from units that are no products and that have a
dimension in normal form. -/
def IsRegular (unit : MeasureUnit) : Prop :=
  BuiltFrom (fun given => given.isProduct = false ∧ given.dimension.IsNormal) unit

namespace IsRegular

/-- Regular units are of the form of units built from such that are no products. -/
theorem hasForm (regular : unit.IsRegular) :
    HasForm (fun given => given.isProduct = false ∧ given.dimension.IsNormal) unit :=
  BuiltFrom.hasForm (fun _ basic => basic.1) regular

/-- A regular unit measures what its factors do. -/
theorem weigh_dimension (regular : unit.IsRegular) (symbol : String) :
    weigh (fun unit => unit.dimension.exponentOf symbol) unit.factors =
      unit.dimension.exponentOf symbol := by
  cases regular.hasForm with
  | given basic =>
      refine weigh_factors basic.1 ?_
      intro plain
      rw [dimension_of_isOne plain, Dimension.exponentOf_none]
  | one => rfl
  | @product terms made _ _ =>
      rw [made, factors_derived]
      exact (exponentOf_dimensionOf terms symbol).symm

/-- **The dimension of a regular unit** is in normal form. -/
theorem isNormal_dimension (regular : unit.IsRegular) : unit.dimension.IsNormal := by
  cases regular.hasForm with
  | given basic => exact basic.2
  | one => exact (by decide : Dimension.none.IsNormal)
  | @product terms made _ _ =>
      rw [made]
      exact isNormal_dimensionOf terms

end IsRegular

/-- **A product measures** the product of what its factors measure. -/
theorem exponentOf_dimension_product (h : ∀ unit e, (unit, e) ∈ terms → unit.IsRegular)
    (symbol : String) : (product terms).dimension.exponentOf symbol =
      weigh (fun unit => unit.dimension.exponentOf symbol) terms := by
  rw [product, exponentOf_dimension_ofTerms, weigh_arranged]
  · intro a b same
    rw [dimension_eq_of_same a b same]
  · exact fun unit e mem => (h unit e mem).weigh_dimension symbol

/-- A factor that measures nothing changes no dimension. -/
theorem dimension_multiply (ha : a.IsRegular) (hb : b.IsRegular) (plain : b.dimension = .none) :
    (a.multiply b).dimension = a.dimension := by
  have regular : ∀ unit e, (unit, e) ∈ [(a, (1 : Int)), (b, 1)] → unit.IsRegular :=
    forall_mem_pair ha hb
  have whole : (a.multiply b).IsRegular := .product regular
  refine Dimension.eq_of_exponentOf whole.isNormal_dimension ha.isNormal_dimension ?_
  intro symbol
  rw [multiply, exponentOf_dimension_product regular, weigh, weigh_singleton, plain,
    Dimension.exponentOf_none, Int.mul_one, Int.add_zero]

/-! ## Which units are regular -/

/-- **Standard units are regular.** -/
theorem IsStandard.isRegular (h : unit.IsStandard) : unit.IsRegular := by
  refine h.mono ?_
  rintro unit ⟨symbol, found⟩
  -- the catalogue is finite, so that each of its units can be looked at
  have entries : ∀ entry ∈ Catalogue.standard.entries,
      entry.2.isProduct = false ∧ entry.2.dimension.IsNormal := by
    decide +kernel
  exact entries (symbol, unit) (Catalogue.mem_entries_of_find? found)

/-- Prices for energy are regular. -/
theorem isRegular_pricePer (code : String) (hundredth : Bool) {energy : MeasureUnit}
    (h : energy ∈ energyUnits) : (pricePer code hundredth energy).IsRegular := by
  have units : ∀ energy ∈ energyUnits,
      energy.isProduct = false ∧ energy.dimension.IsNormal := by
    decide +kernel
  refine .divide (.given ⟨?_, ?_⟩) (.given (units energy h))
  · cases hundredth <;> rfl
  · rw [dimension_money]
    decide

/-! ## Roots -/

mutual

/-- The roots of a reduction are in normal form. -/
theorem collect_roots : (unit : MeasureUnit) → {r : Reduction} → unit.reduce? = some r →
    r.roots.collect = r.roots
  | primitive label name dimension, r, h => by
    rw [reduce?] at h
    split at h <;> obtain rfl := Option.some.inj h <;> rfl
  | scaled _ _ base factor, r, h => by
    obtain ⟨reduced, hreduced, numerator, -, rfl⟩ := reduce?_scaled.mp h
    exact collect_roots base (r := reduced) hreduced
  | derived terms _ _ _, r, h => by
    rw [reduce?] at h
    exact collect_rootsOfTerms terms rfl h

theorem collect_rootsOfTerms : (terms : List (MeasureUnit × Int)) → {start r : Reduction} →
    start.roots.collect = start.roots → reduceTerms? terms start = some r →
      r.roots.collect = r.roots
  | [], start, r, collected, h => by
    rw [reduceTerms?] at h
    exact Option.some.inj h ▸ collected
  | (unit, e) :: rest, start, r, _, h => by
    obtain ⟨other, -, next, hnext, h⟩ := reduceTerms?_cons.mp h
    refine collect_rootsOfTerms rest ?_ h
    rw [(Reduction.absorb?_eq_some.mp hnext).2.2, Powers.collect_collect]

end

/-- **Equal degrees make equal roots.** -/
theorem roots_eq_of_degree {r s : Reduction} (hr : a.reduce? = some r) (hs : b.reduce? = some s)
    (h : ∀ symbol, a.degree symbol = b.degree symbol) : r.roots = s.roots := by
  rw [← collect_roots a hr, ← collect_roots b hs]
  refine Powers.collect_congr ?_
  intro symbol
  rw [exponentOf_roots symbol a hr, exponentOf_roots symbol b hs, h]

/-! ## Conversions that lack nothing but room -/

/-- **Units of one dimension and equal degrees** are converted, if there is room. -/
theorem conversionTo_of_degree (dimension : a.dimension = b.dimension)
    (degree : ∀ symbol, a.degree symbol = b.degree symbol) :
    FailsBy (· = .overflow) (a.conversionTo b) := by
  have compatible : a.compatible b = true := by rw [MeasureUnit.compatible, dimension, beq_self_eq_true]
  rw [conversionTo, if_pos compatible]
  split
  · exact .ok _
  · split
    · next r s hr hs =>
        rw [reducedConversion, if_pos (roots_eq_of_degree hr hs degree)]
        split
        · exact .ok _
        · exact .error rfl
    · exact .error rfl

/-- There is room where both sides of the fraction have it. -/
theorem exists_conversionTo {r s : Reduction} (dimension : a.dimension = b.dimension)
    (degree : ∀ symbol, a.degree symbol = b.degree symbol) (hr : a.reduce? = some r)
    (hs : b.reduce? = some s) (numerator : (r.numerator.multiply? s.denominator).isSome = true)
    (denominator : (r.denominator.multiply? s.numerator).isSome = true) :
    ∃ conversion, a.conversionTo b = .ok conversion := by
  have compatible : a.compatible b = true := by rw [MeasureUnit.compatible, dimension, beq_self_eq_true]
  obtain ⟨n, hn⟩ := Option.isSome_iff_exists.mp numerator
  obtain ⟨d, hd⟩ := Option.isSome_iff_exists.mp denominator
  rw [conversionTo, if_pos compatible]
  split
  · exact ⟨_, rfl⟩
  · rw [hr, hs]
    dsimp only
    rw [reducedConversion, if_pos (roots_eq_of_degree hr hs degree), hn, hd]
    exact ⟨_, rfl⟩

/-- What converts into the unit of plain numbers has no degree in any root unit. -/
theorem degree_of_conversionTo_one {conversion : Conversion} (h : unit.conversionTo one = .ok conversion)
    (symbol : String) : unit.degree symbol = 0 := by
  have roots : one.HasRoots [] := ⟨_, rfl, rfl⟩
  exact (HasRoots.of_conversionTo h roots).degree symbol

section Multiply

variable {conversion : Conversion} (ha : a.IsRegular) (hb : b.IsRegular)
  (plain : b.dimension = .none) (fraction : b.conversionTo one = .ok conversion)
include ha hb plain fraction

/-- A plain number of any kind changes neither dimension nor degrees. -/
theorem measures_multiply : (a.multiply b).dimension = a.dimension ∧
    ∀ symbol, (a.multiply b).degree symbol = a.degree symbol := by
  refine ⟨dimension_multiply ha hb plain, fun symbol => ?_⟩
  rw [multiply, degree_product, degreeOfTerms_eq_weigh, weigh, weigh_singleton,
    degree_of_conversionTo_one fraction, Int.mul_one, Int.add_zero]

/-- **A product with a plain number** of any kind is converted into the unit of the
other factor, if there is room. -/
theorem conversionTo_multiply : FailsBy (· = .overflow) ((a.multiply b).conversionTo a) :=
  have ⟨dimension, degree⟩ := measures_multiply ha hb plain fraction
  conversionTo_of_degree dimension degree

end Multiply

end Tariff.MeasureUnit
