import Tariff.Proofs.Measure.PriceUnit

/-!
# Products in normal form

A product names each unit once, those above the line first.  Multiplied out again
it stays what it is, so that a quotient by plain numbers is the dividend.

## Main definitions

* `MeasureUnit.isProduct` — whether a unit is made of terms
* `MeasureUnit.IsComposed` — units that are no products, and products of powers
  of such units
* `MeasureUnit.HasForm` — the form that such units have

## Main statements

* `MeasureUnit.merge_of_distinct`, `MeasureUnit.arrange_arrange` — what is in
  normal form is left alone
* `MeasureUnit.BuiltFrom.hasForm` — what is built from units that are no products is
  one of them, the unit of plain numbers or a product in normal form
* `MeasureUnit.IsStandard.hasForm` — standard units have this form
* `MeasureUnit.IsComposed.conversionTo_divide_one` — a quotient by plain numbers
  is converted back by the identity

## Design notes

`IsComposed` says how a unit comes about and leaves its labels and factors open:
any root unit, any multiple of any unit, and whatever the algebra of units makes
of these.  A list of terms that nothing has brought into normal form is not among
them.
-/

namespace Tariff.MeasureUnit

/-! ## Each unit once -/

/-- Whether no two terms have units built alike. -/
def Distinct (terms : List (MeasureUnit × Int)) : Prop :=
  terms.Pairwise fun a b => a.1.same b.1 = false

variable {unit : MeasureUnit} {e : Int} {terms : List (MeasureUnit × Int)}

/-- The units of what a power was absorbed into are those it had, and with a new one
that is different from all of them. -/
theorem Distinct.absorb (h : Distinct terms) (unit : MeasureUnit) (e : Int) :
    Distinct (absorb unit e terms) := by
  induction terms with
  | nil => exact List.pairwise_singleton _ _
  | cons head rest ih =>
      obtain ⟨first, f⟩ := head
      obtain ⟨apart, rest'⟩ := List.pairwise_cons.mp h
      rw [MeasureUnit.absorb]
      split
      · exact List.pairwise_cons.mpr ⟨apart, rest'⟩
      · next different =>
          refine List.pairwise_cons.mpr ⟨?_, ih rest'⟩
          rintro ⟨other, g⟩ mem
          rcases exists_mem_of_mem_absorb mem with rfl | ⟨k, mem⟩
          · exact Bool.eq_false_of_not_eq_true different
          · exact apart (other, k) mem

/-- **Merging names each unit once.** -/
theorem distinct_merge (terms : List (MeasureUnit × Int)) : Distinct (merge terms) := by
  induction terms using List.reverseRecOn with
  | nil => exact List.Pairwise.nil
  | append_singleton terms last ih =>
      rw [merge_concat]
      exact ih.absorb last.1 last.2

/-- A power is absorbed behind terms with different units. -/
theorem absorb_append {front back : List (MeasureUnit × Int)}
    (h : ∀ term ∈ front, term.1.same unit = false) :
    absorb unit e (front ++ back) = front ++ absorb unit e back := by
  induction front with
  | nil => rfl
  | cons head rest ih =>
      have different : head.1.same unit = false := h _ List.mem_cons_self
      rw [List.cons_append, absorb, if_neg (by rw [different]; decide),
        ih fun term mem => h term (List.mem_cons_of_mem _ mem), List.cons_append]

/-- A different unit is put at the end. -/
theorem absorb_of_different (h : ∀ term ∈ terms, term.1.same unit = false) :
    absorb unit e terms = terms ++ [(unit, e)] := by
  calc absorb unit e terms = absorb unit e (terms ++ []) := by rw [List.append_nil]
    _ = terms ++ [(unit, e)] := absorb_append h

/-- **Terms that name each unit once** are merged already. -/
theorem merge_of_distinct (h : Distinct terms) : merge terms = terms := by
  induction terms using List.reverseRecOn with
  | nil => rfl
  | append_singleton terms last ih =>
      obtain ⟨distinct, -, apart⟩ := List.pairwise_append.mp h
      rw [merge_concat, ih distinct]
      exact absorb_of_different fun term mem => apart term mem last List.mem_cons_self

/-! ## Above the line and below it -/

/-- Arranging keeps units apart. -/
theorem Distinct.arrange (h : Distinct terms) : Distinct (arrange terms) := by
  have symmetric : Std.Symm fun a b : MeasureUnit × Int => a.1.same b.1 = false :=
    ⟨fun a b different => by rwa [same_comm]⟩
  refine List.pairwise_append.mpr ⟨h.filter _, h.filter _, ?_⟩
  intro above mem below mem'
  have ne : above ≠ below := by
    rintro rfl
    have positive := of_decide_eq_true (List.mem_filter.mp mem).2
    have negative := of_decide_eq_true (List.mem_filter.mp mem').2
    omega
  exact List.Pairwise.forall h (List.mem_of_mem_filter mem) (List.mem_of_mem_filter mem') ne

/-- No exponent stands above the line and below it. -/
theorem above_and_below (e : Int) : (decide (0 < e) && decide (e < 0)) = false := by
  simp
  omega

theorem below_and_above (e : Int) : (decide (e < 0) && decide (0 < e)) = false := by
  rw [Bool.and_comm, above_and_below]

/-- **What is arranged** stays as it is. -/
theorem arrange_arrange (terms : List (MeasureUnit × Int)) :
    arrange (arrange terms) = arrange terms := by
  simp only [arrange, List.filter_append, List.filter_filter, Bool.and_self, above_and_below,
    below_and_above, List.filter_false, List.append_nil, List.nil_append]

/-! ## Products -/

/-- Whether a unit is made of terms. -/
def isProduct : MeasureUnit → Bool
  | derived _ _ _ _ => true
  | _ => false

/-- **Composed units** are units that are no products, and the products of powers of
composed units. -/
def IsComposed (unit : MeasureUnit) : Prop :=
  BuiltFrom (fun given => given.isProduct = false) unit

/-- The factors of a unit that is no product. -/
theorem factors_of_not_isProduct (h : unit.isProduct = false) :
    unit.factors = if unit.isOne then [] else [(unit, 1)] := by
  cases unit with
  | derived _ _ _ _ => cases h
  | primitive _ _ _ => rfl
  | scaled _ _ _ _ => rfl

/-- The unit with the given terms is that of no term, of one term, or made of them. -/
theorem ofTerms_cases (terms : List (MeasureUnit × Int)) :
    terms = [] ∨ (∃ unit, terms = [(unit, 1)]) ∨
      ofTerms terms = derived terms (symbolOf terms) (nameOf terms) (dimensionOf terms) := by
  unfold ofTerms
  split
  · exact .inl rfl
  · exact .inr (.inl ⟨_, rfl⟩)
  · exact .inr (.inr rfl)

/-- **The form of a unit** built from units that are no products: one of these, the unit
of plain numbers, or a product of powers of these in normal form. -/
inductive HasForm (given : MeasureUnit → Prop) : MeasureUnit → Prop where
  /-- One of the given units. -/
  | given {unit : MeasureUnit} (basic : given unit) : HasForm given unit
  /-- The unit of plain numbers. -/
  | one : HasForm given .one
  /-- A product that is in normal form, of given units that have an effect in it. -/
  | product {terms : List (MeasureUnit × Int)}
      (made : ofTerms terms = derived terms (symbolOf terms) (nameOf terms) (dimensionOf terms))
      (normal : arrange (merge terms) = terms)
      (parts : ∀ factor e, (factor, e) ∈ terms → given factor ∧ factor.isOne = false) :
      HasForm given (ofTerms terms)

/-- **The factors of such a unit** are among the given ones, and none is the unit of plain
numbers. -/
theorem HasForm.factor_facts {given : MeasureUnit → Prop}
    (single : ∀ unit, given unit → unit.isProduct = false) (form : HasForm given unit)
    {factor : MeasureUnit} (h : (factor, e) ∈ unit.factors) :
    given factor ∧ factor.isOne = false := by
  cases form with
  | given basic =>
      rw [factors_of_not_isProduct (single unit basic)] at h
      split at h
      · cases h
      · next different =>
          obtain ⟨rfl, -⟩ := Prod.mk.inj (List.mem_singleton.mp h)
          exact ⟨basic, Bool.eq_false_of_not_eq_true different⟩
  | one => cases h
  | product made _ parts =>
      rw [made, factors_derived] at h
      exact parts factor e h

/-- **Units built from units that are no products** have that form. -/
theorem BuiltFrom.hasForm {given : MeasureUnit → Prop}
    (single : ∀ unit, given unit → unit.isProduct = false) (built : BuiltFrom given unit) :
    HasForm given unit := by
  induction built with
  | given basic => exact .given basic
  | @product terms _ ih =>
      have parts : ∀ factor e, (factor, e) ∈ arrange (merge (flatten terms)) →
          given factor ∧ factor.isOne = false := by
        intro factor e mem
        obtain ⟨whole, f, g, memTerms, memFactors⟩ := exists_factor_of_mem_arrange mem
        exact (ih whole f memTerms).factor_facts single memFactors
      have normal : arrange (merge (arrange (merge (flatten terms)))) =
          arrange (merge (flatten terms)) := by
        rw [merge_of_distinct (distinct_merge _).arrange, arrange_arrange]
      rw [MeasureUnit.product]
      generalize arrange (merge (flatten terms)) = arranged at parts normal
      rcases ofTerms_cases arranged with rfl | ⟨unit, rfl⟩ | made
      · exact .one
      · exact .given (parts unit 1 List.mem_cons_self).1
      · exact .product made normal parts

/-- **Products made in 32 bits** are built from the factors of what is multiplied. -/
theorem BuiltFrom.heldProduct {given : MeasureUnit → Prop}
    (single : ∀ unit, given unit → unit.isProduct = false)
    (built : ∀ unit e, (unit, e) ∈ terms → BuiltFrom given unit) :
    BuiltFrom given (heldProduct terms) := by
  refine .product fun factor e mem => ?_
  obtain ⟨whole, f, g, memTerms, memFactors⟩ := exists_factor_of_mem_held mem
  exact .given (((built whole f memTerms).hasForm single).factor_facts single memFactors).1

/-! ## Standard units -/

/-- The standard catalogue has no products in it. -/
theorem isProduct_of_find? (h : ∃ symbol, Catalogue.standard.find? symbol = some unit) :
    unit.isProduct = false := by
  have entries : Catalogue.standard.entries.all (fun entry => !entry.2.isProduct) = true := by
    decide +kernel
  obtain ⟨symbol, found⟩ := h
  have entry := List.all_eq_true.mp entries (symbol, unit) (Catalogue.mem_entries_of_find? found)
  simpa using entry

/-- **Standard units** are entries of the standard catalogue, or products of them in normal form. -/
theorem IsStandard.hasForm (standard : unit.IsStandard) :
    HasForm (fun entry => ∃ symbol, Catalogue.standard.find? symbol = some entry) unit :=
  BuiltFrom.hasForm (fun _ entered => isProduct_of_find? entered) standard

/-! ## Quotients by plain numbers -/

/-- A quotient by plain numbers is made of the factors of the dividend. -/
theorem divide_one_eq (unit : MeasureUnit) :
    unit.divide one = ofTerms (arrange (merge unit.factors)) := by
  have plain : one.factors = [] := by decide
  simp [divide, product, flatten, plain]

/-- So is a product with plain numbers. -/
theorem multiply_one_eq (unit : MeasureUnit) : unit.multiply one = unit.divide one := by
  have plain : one.factors = [] := by decide
  simp [multiply, divide, product, flatten, plain]

/-- **A composed unit over plain numbers** is that unit, unless it is the unit of
plain numbers by another name. -/
theorem IsComposed.divide_one (composed : unit.IsComposed) :
    unit.divide one = unit ∨ unit.isOne = true ∧ unit.divide one = one := by
  rw [divide_one_eq]
  have single : ∀ unit : MeasureUnit, unit.isProduct = false →
      ofTerms (arrange (merge unit.factors)) = unit ∨
        unit.isOne = true ∧ ofTerms (arrange (merge unit.factors)) = one := by
    intro unit h
    rw [factors_of_not_isProduct h]
    split
    · next plain => exact .inr ⟨plain, rfl⟩
    · exact .inl rfl
  cases composed.hasForm fun _ basic => basic with
  | given basic => exact single unit basic
  | one => exact single .one rfl
  | product made normal _ => exact .inl (by rw [made, factors_derived, normal, made])

/-- **Back from plain numbers.**  A quotient by plain numbers is converted into the
unit of the dividend by the identity. -/
theorem IsComposed.conversionTo_divide_one (composed : unit.IsComposed) :
    (unit.divide one).conversionTo unit = .ok .identity := by
  rcases composed.divide_one with eq | ⟨plain, eq⟩
  · rw [eq, conversionTo, if_pos unit.same_self]
  · rw [eq]
    cases unit with
    | primitive symbol name dimension =>
        rw [isOne, Bool.and_eq_true, beq_iff_eq, Dimension.isNone, beq_iff_eq] at plain
        obtain ⟨rfl, rfl⟩ := plain
        -- names may differ, but there is nothing to multiply by
        by_cases same : one.same (primitive "one" name .none) = true
        · rw [conversionTo, if_pos same]
        · rw [conversionTo, if_neg same]
          rfl
    | scaled _ _ _ _ => cases plain
    | derived _ _ _ _ => cases plain

end Tariff.MeasureUnit
