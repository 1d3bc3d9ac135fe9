import Mathlib.Algebra.BigOperators.Ring.Finset
import Tariff.Proofs.Measure.Regular

/-!
# Dimensions and roots

A unit keeps its dimension and is reduced to its roots without looking at it.  Where root
units of one symbol measure the same, the roots of a unit say what it measures: units of
equal roots are never told apart by their dimensions.

## Main definitions

* `MeasureUnit.IsMade` — units made from root units, as multiples and products of any depth
* `MeasureUnit.rootUnits` — the root units in a unit, with what they measure
* `MeasureUnit.IsCoherent` — units in which each product measures what its terms do

## Main statements

* `MeasureUnit.dimension_product` — a product measures the product of what its factors
  measure
* `MeasureUnit.exponentOf_roots_product` — the roots of a product are those of its factors,
  added up
* `MeasureUnit.exponentOf_dimension_eq_sum` — the roots of a unit measure what the unit does
* `MeasureUnit.dimension_eq_of_degree` — equal degrees make equal dimensions
* `MeasureUnit.product_sound` — all of this together, and what follows for conversions

## Design notes

A product is taken apart, merged and arranged before its dimension is calculated from what
is left, and factors that cancel leave no trace.  The exponent of a base in a dimension is
therefore followed through the tree of a unit, in which every product has been calculated
already, and not through the way in which the unit came about.
-/

namespace Tariff.MeasureUnit

variable {unit a b : MeasureUnit} {terms : List (MeasureUnit × ℤ)}

/-! ## Units made from root units -/

/-- **Units made from root units** with a dimension in normal form, as multiples and products. -/
inductive IsMade : MeasureUnit → Prop
  | primitive (symbol name : String) {dimension : Dimension} (normal : dimension.IsNormal) :
      IsMade (primitive symbol name dimension)
  | scaled (symbol name : String) {base : MeasureUnit} (factor : Decimal) (h : IsMade base) :
      IsMade (scaled symbol name base factor)
  | product {terms : List (MeasureUnit × ℤ)} (h : ∀ unit e, (unit, e) ∈ terms → IsMade unit) :
      IsMade (product terms)

/-- They are regular. -/
theorem IsMade.isRegular (made : unit.IsMade) : unit.IsRegular := by
  induction made with
  | primitive symbol name normal => exact .given ⟨rfl, normal⟩
  | scaled symbol name factor _ ih => exact .given ⟨rfl, ih.isNormal_dimension⟩
  | product _ ih => exact .product ih

/-- **A product measures** the product of what its factors measure. -/
theorem dimension_product (made : ∀ unit e, (unit, e) ∈ terms → unit.IsMade) :
    (product terms).dimension = dimensionOf terms := by
  have regular : (product terms).IsRegular := (IsMade.product made).isRegular
  refine Dimension.eq_of_exponentOf regular.isNormal_dimension (isNormal_dimensionOf terms) ?_
  intro symbol
  rw [exponentOf_dimension_product (fun unit e mem => (made unit e mem).isRegular),
    exponentOf_dimensionOf]

/-! ## Roots of products -/

/-- **The roots of a product** are those of its factors, added up. -/
theorem exponentOf_roots_product {roots : MeasureUnit → Powers} {p : Powers}
    (factors : ∀ unit e, (unit, e) ∈ terms → unit.HasRoots (roots unit))
    (h : (product terms).HasRoots p) (symbol : String) :
    p.exponentOf symbol = (terms.map fun (unit, e) => (roots unit).exponentOf symbol * e).sum := by
  rw [← h.degree, degree_product]
  clear h
  induction terms with
  | nil => rfl
  | cons head rest ih =>
      obtain ⟨unit, e⟩ := head
      rw [degreeOfTerms, List.map_cons, List.sum_cons,
        ih fun unit e mem => factors unit e (List.mem_cons_of_mem _ mem),
        (factors unit e List.mem_cons_self).degree]

/-! ## What roots measure -/

mutual

/-- **The root units** in a unit, with what they measure. -/
def rootUnits : MeasureUnit → List (String × Dimension)
  | primitive symbol _ dimension => [(symbol, dimension)]
  | scaled _ _ base _ => base.rootUnits
  | derived terms _ _ _ => rootUnitsOfTerms terms

/-- The root units in the terms of a product. -/
def rootUnitsOfTerms : List (MeasureUnit × ℤ) → List (String × Dimension)
  | [] => []
  | (unit, _) :: rest => unit.rootUnits ++ rootUnitsOfTerms rest

end

/-- **Coherent units**: each product in them measures what its terms do. -/
inductive IsCoherent : MeasureUnit → Prop
  | primitive (symbol name : String) (dimension : Dimension) :
      IsCoherent (primitive symbol name dimension)
  | scaled (symbol name : String) {base : MeasureUnit} (factor : Decimal) (h : IsCoherent base) :
      IsCoherent (scaled symbol name base factor)
  | derived {terms : List (MeasureUnit × ℤ)} (symbol name : String)
      (h : ∀ unit e, (unit, e) ∈ terms → IsCoherent unit) :
      IsCoherent (derived terms symbol name (dimensionOf terms))

/-- The factors of a coherent unit are coherent. -/
theorem IsCoherent.of_mem_factors (coherent : unit.IsCoherent) {factor : MeasureUnit} {e : ℤ}
    (h : (factor, e) ∈ unit.factors) : factor.IsCoherent := by
  have single : unit.isProduct = false → factor.IsCoherent := by
    intro single
    rw [factors_of_not_isProduct single] at h
    split at h
    · cases h
    · obtain ⟨rfl, -⟩ := Prod.mk.inj (List.mem_singleton.mp h)
      exact coherent
  cases coherent with
  | primitive => exact single rfl
  | scaled => exact single rfl
  | derived symbol name parts => exact parts factor e h

/-- Units made from root units are coherent. -/
theorem IsMade.isCoherent (made : unit.IsMade) : unit.IsCoherent := by
  induction made with
  | primitive symbol name normal => exact .primitive symbol name _
  | scaled symbol name factor _ ih => exact .scaled symbol name factor ih
  | @product terms _ ih =>
      have parts : ∀ unit e, (unit, e) ∈ arrange (merge (flatten terms)) → unit.IsCoherent := by
        intro unit e mem
        obtain ⟨whole, f, g, term, factor⟩ := exists_factor_of_mem_arrange mem
        exact (ih whole f term).of_mem_factors factor
      rw [MeasureUnit.product]
      generalize arrange (merge (flatten terms)) = arranged at parts
      rcases ofTerms_cases arranged with rfl | ⟨unit, rfl⟩ | made
      · exact .primitive _ _ _
      · exact parts unit 1 List.mem_cons_self
      · rw [made]
        exact .derived _ _ parts

section Measure

variable {measure : String → Dimension} {symbols : Finset String}

theorem mem_rootUnitsOfTerms {e : ℤ} {root : String × Dimension} (h : (unit, e) ∈ terms)
    (mem : root ∈ unit.rootUnits) : root ∈ rootUnitsOfTerms terms := by
  induction terms with
  | nil => cases h
  | cons head rest ih =>
      obtain ⟨other, f⟩ := head
      rw [rootUnitsOfTerms, List.mem_append]
      rcases List.mem_cons.mp h with eq | h
      · obtain ⟨rfl, -⟩ := Prod.mk.inj eq
        exact .inl mem
      · exact .inr (ih h)

/-- What is known of units by their degrees is known of a product of powers of them. -/
theorem weigh_eq_sum {weight : MeasureUnit → ℤ} {value : String → ℤ}
    (each : ∀ unit e, (unit, e) ∈ terms →
      weight unit = ∑ symbol ∈ symbols, unit.degree symbol * value symbol) :
    weigh weight terms = ∑ symbol ∈ symbols, degreeOfTerms terms symbol * value symbol := by
  induction terms with
  | nil => simp [weigh, degreeOfTerms]
  | cons head rest ih =>
      obtain ⟨unit, e⟩ := head
      rw [weigh, each unit e List.mem_cons_self,
        ih fun unit e mem => each unit e (List.mem_cons_of_mem _ mem), Finset.sum_mul,
        ← Finset.sum_add_distrib]
      refine Finset.sum_congr rfl fun symbol _ => ?_
      rw [degreeOfTerms]
      ring

/-- **The roots of a unit measure what the unit does.** -/
theorem exponentOf_dimension_eq_sum (coherent : unit.IsCoherent)
    (named : ∀ root ∈ unit.rootUnits, root.1 ∈ symbols ∧ measure root.1 = root.2) (base : String) :
    unit.dimension.exponentOf base =
      ∑ symbol ∈ symbols, unit.degree symbol * (measure symbol).exponentOf base := by
  induction coherent with
  | primitive label name dimension =>
      obtain ⟨mem, eq⟩ := named (label, dimension) List.mem_cons_self
      cases plain : (primitive label name dimension).isOne with
      | true =>
          rw [dimension_of_isOne plain, Dimension.exponentOf_none]
          refine (Finset.sum_eq_zero fun symbol _ => ?_).symm
          rw [degree, if_pos plain, Int.zero_mul]
      | false =>
          have one : ∀ symbol, (primitive label name dimension).degree symbol =
              if label = symbol then 1 else 0 := by
            intro symbol
            rw [degree, if_neg (by rw [plain]; decide)]
          simp [one, mem, eq, MeasureUnit.dimension]
  | scaled symbol name factor _ ih =>
      rw [MeasureUnit.dimension, ih named]
      rfl
  | @derived terms symbol name _ ih =>
      rw [rootUnits] at named
      rw [MeasureUnit.dimension, exponentOf_dimensionOf]
      exact weigh_eq_sum fun unit e mem =>
        ih unit e mem fun root inside => named root (mem_rootUnitsOfTerms mem inside)

end Measure

/-- **Equal degrees make equal dimensions**, where root units of one symbol measure the same. -/
theorem dimension_eq_of_degree (ha : a.IsMade) (hb : b.IsMade)
    (consistent : ∀ root ∈ a.rootUnits ++ b.rootUnits, ∀ other ∈ a.rootUnits ++ b.rootUnits,
      root.1 = other.1 → root.2 = other.2)
    (degree : ∀ symbol, a.degree symbol = b.degree symbol) : a.dimension = b.dimension := by
  classical
  generalize eq : a.rootUnits ++ b.rootUnits = roots at consistent
  let measure (symbol : String) : Dimension :=
    if h : ∃ d, (symbol, d) ∈ roots then h.choose else .none
  have named : ∀ root ∈ roots,
      root.1 ∈ (roots.map Prod.fst).toFinset ∧ measure root.1 = root.2 := by
    rintro ⟨symbol, d⟩ mem
    have some : ∃ d, (symbol, d) ∈ roots := ⟨d, mem⟩
    refine ⟨List.mem_toFinset.mpr (List.mem_map_of_mem mem), ?_⟩
    rw [show measure symbol = some.choose from dif_pos some]
    exact consistent _ some.choose_spec _ mem rfl
  refine Dimension.eq_of_exponentOf ha.isRegular.isNormal_dimension
    hb.isRegular.isNormal_dimension fun base => ?_
  rw [exponentOf_dimension_eq_sum ha.isCoherent
      (fun root mem => named root (eq ▸ List.mem_append_left _ mem)) base,
    exponentOf_dimension_eq_sum hb.isCoherent
      (fun root mem => named root (eq ▸ List.mem_append_right _ mem)) base]
  exact Finset.sum_congr rfl fun symbol _ => by rw [degree]

/-- Units with equal roots have equal degrees. -/
theorem HasRoots.degree_eq {p : Powers} (ha : a.HasRoots p) (hb : b.HasRoots p) (symbol : String) :
    a.degree symbol = b.degree symbol := by
  rw [ha.degree, hb.degree]

/-- What is converted measures the same. -/
theorem dimension_eq_of_conversionTo {c : Conversion} (h : a.conversionTo b = .ok c) :
    a.dimension = b.dimension := by
  rw [conversionTo] at h
  split at h
  · next same => exact dimension_eq_of_same a b same
  · split at h
    · next compatible => exact beq_iff_eq.mp compatible
    · cases h

/-- **Dimensions of products are sound.**  A product measures the product of what its factors
measure, and reduces to the product of what they reduce to.  Where root units of one symbol measure
the same, units with equal roots have equal dimensions: between them nothing but room can be missing
for a conversion.  And there is none between units of different dimensions. -/
theorem product_sound (made : ∀ unit e, (unit, e) ∈ terms → unit.IsMade) :
    (product terms).dimension = dimensionOf terms ∧
      (∀ (roots : MeasureUnit → Powers) (p : Powers),
        (∀ unit e, (unit, e) ∈ terms → unit.HasRoots (roots unit)) →
          (product terms).HasRoots p → p.collect = p ∧ ∀ symbol, p.exponentOf symbol =
            (terms.map fun (unit, e) => (roots unit).exponentOf symbol * e).sum) ∧
      ∀ a b : MeasureUnit, a.IsMade → b.IsMade →
        (∀ root ∈ a.rootUnits ++ b.rootUnits, ∀ other ∈ a.rootUnits ++ b.rootUnits,
          root.1 = other.1 → root.2 = other.2) →
            (∀ p : Powers, a.HasRoots p → b.HasRoots p → a.dimension = b.dimension ∧
              ∀ fault, a.conversionTo b = .error fault → fault = .overflow) ∧
            ∀ c, a.conversionTo b = .ok c → a.dimension = b.dimension := by
  refine ⟨dimension_product made, ?_, ?_⟩
  · rintro roots p factors ⟨r, hr, rfl⟩
    exact ⟨collect_roots _ hr, exponentOf_roots_product factors ⟨r, hr, rfl⟩⟩
  · intro a b ha hb consistent
    refine ⟨fun p rootsA rootsB => ?_, fun c h => dimension_eq_of_conversionTo h⟩
    have degree := rootsA.degree_eq rootsB
    have dimension := dimension_eq_of_degree ha hb consistent degree
    exact ⟨dimension, conversionTo_of_degree dimension degree⟩

/-- Cents for energy, and that energy: what is left are cents, which measure what euros do. -/
theorem product_sound_cent :
    (product [(pricePer "EUR" true kilowattHour, 2), (kilowattHour, 1)]).dimension =
        dimensionOf [(pricePer "EUR" true kilowattHour, 2), (kilowattHour, 1)] ∧
      ((pricePer "EUR" true kilowattHour).multiply kilowattHour).dimension =
        (money "EUR" false).dimension := by
  have euro : (money "EUR" false).IsMade := .primitive _ _ (by decide)
  have cent : (money "EUR" true).IsMade := .scaled _ _ _ euro
  have energy : kilowattHour.IsMade :=
    .scaled _ _ _ (.scaled _ _ _ (.primitive _ _ (by decide)))
  have price : (pricePer "EUR" true kilowattHour).IsMade := by
    rw [pricePer, divide]
    exact .product (forall_mem_pair cent energy)
  have left : ((pricePer "EUR" true kilowattHour).multiply kilowattHour).IsMade := by
    rw [multiply]
    exact .product (forall_mem_pair price energy)
  have made : ∀ unit e,
      (unit, e) ∈ [(pricePer "EUR" true kilowattHour, (2 : ℤ)), (kilowattHour, 1)] → unit.IsMade :=
    forall_mem_pair price energy
  obtain ⟨dimension, -, sound⟩ := product_sound made
  obtain ⟨equal, -⟩ := sound _ _ left euro (by decide +kernel)
  exact ⟨dimension, (equal [("EUR", 1)] ⟨_, rfl, rfl⟩ ⟨_, rfl, rfl⟩).1⟩

end Tariff.MeasureUnit
