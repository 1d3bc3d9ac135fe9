import Tariff.Proofs.Measure.NormalForm

/-!
# Units in normal form throughout

However a unit comes about, by the algebra of units, as a multiple or from an expression that is
read, each product in it is in normal form, at any depth.  A quotient of a unit by itself therefore
leaves no term, and an inverse has the terms of the unit in an order from which a second inverse
restores the first one.

## Main definitions

* `MeasureUnit.AreCanonical` — terms in normal form
* `MeasureUnit.IsCanonical` — units in which all products have such terms
* `MeasureUnit.IsPartOf` — the nodes of a unit
* `MeasureUnit.IsReachable` — units that come about by any operation

## Main statements

* `Catalogue.read_eq_ok` — what is read is an entry or a product of powers of entries
* `MeasureUnit.IsReachable.isCanonical` — reachable units are canonical
* `MeasureUnit.IsComposed.divide_self`, `MeasureUnit.IsComposed.inverse_inverse` — a unit over
  itself, and one over one over a unit
* `MeasureUnit.IsReachable.canonical` — all of this together

## Design notes

A multiple may be taken of a product, and its base is then out of reach for the products it goes
into.  What holds at any depth is therefore carried as a property of the units that are given to a
product, while the product itself is made anew from their terms.
-/

namespace Tariff

/-! ## Units that are read -/

namespace Catalogue

open Outcome

variable {c : Catalogue} {text : List Char} {terms : List (MeasureUnit × Int)} {unit : MeasureUnit}
  {e : Int}

/-- What a factor names is an entry. -/
theorem exists_entry_of_readFactor (h : c.readFactor text = .ok (unit, e)) :
    ∃ symbol, (symbol, unit) ∈ c.entries := by
  obtain ⟨⟨symbol, f⟩, -, h⟩ := bind_eq_ok.mp h
  obtain ⟨found, hfound, h⟩ := bind_eq_ok.mp h
  obtain ⟨rfl, -⟩ := Prod.mk.inj (pure_eq_ok.mp h)
  rw [lookup] at hfound
  split at hfound
  · next entered =>
      obtain rfl := Except.ok.inj hfound
      exact ⟨_, mem_entries_of_find? entered⟩
  · cases hfound

/-- So is the unit of each term on a side of the line. -/
theorem exists_entry_of_readSide (h : c.readSide text = .ok terms) (mem : (unit, e) ∈ terms) :
    ∃ symbol, (symbol, unit) ∈ c.entries := by
  unfold readSide at h
  dsimp only at h
  split at h
  · obtain rfl := Except.ok.inj h
    cases mem
  · obtain ⟨piece, -, read⟩ := exists_of_mem_results h mem
    exact exists_entry_of_readFactor read

/-- So is the unit of each term of an expression. -/
theorem exists_entry_of_readTerms (h : c.readTerms text = .ok terms) (mem : (unit, e) ∈ terms) :
    ∃ symbol, (symbol, unit) ∈ c.entries := by
  unfold readTerms at h
  split at h
  · exact exists_entry_of_readSide h mem
  · obtain ⟨above, habove, h⟩ := bind_eq_ok.mp h
    split at h
    · cases h
    · obtain ⟨below, hbelow, h⟩ := bind_eq_ok.mp h
      obtain rfl := pure_eq_ok.mp h
      rcases List.mem_append.mp mem with mem | mem
      · exact exists_entry_of_readSide habove mem
      · obtain ⟨⟨part, f⟩, found, eq⟩ := List.mem_map.mp mem
        obtain ⟨rfl, -⟩ := Prod.mk.inj eq
        exact exists_entry_of_readSide hbelow found

/-- **What is read** is an entry or a product of powers of entries. -/
theorem read_eq_ok {text : String} (h : c.read text = .ok unit) :
    (∃ symbol, (symbol, unit) ∈ c.entries) ∨
      ∃ terms, unit = .heldProduct terms ∧
        ∀ part e, (part, e) ∈ terms → ∃ symbol, (symbol, part) ∈ c.entries := by
  unfold read readChars at h
  dsimp only at h
  split at h
  · next entered =>
      obtain rfl := Except.ok.inj h
      exact .inl ⟨_, mem_entries_of_find? entered⟩
  · split at h
    · cases h
    · obtain ⟨terms, hterms, rfl⟩ := map_eq_ok.mp h
      exact .inr ⟨terms, rfl, fun part e mem => exists_entry_of_readTerms hterms mem⟩

end Catalogue

namespace MeasureUnit

variable {unit : MeasureUnit} {e : Int} {terms : List (MeasureUnit × Int)}

/-! ## Terms in normal form -/

/-- **Terms in normal form**, as they are kept in a product. -/
structure AreCanonical (terms : List (MeasureUnit × Int)) : Prop where
  /-- There is a term. -/
  nonempty : terms ≠ []
  /-- No term is a product. -/
  flat : ∀ unit e, (unit, e) ∈ terms → unit.isProduct = false
  /-- No term is the unit of plain numbers. -/
  effective : ∀ unit e, (unit, e) ∈ terms → unit.isOne = false
  /-- No exponent is zero. -/
  nonzero : ∀ unit e, (unit, e) ∈ terms → e ≠ 0
  /-- No two terms have the same unit. -/
  distinct : Distinct terms
  /-- Below the line there are only terms below the line. -/
  ordered : terms.Pairwise fun a b => a.2 < 0 → b.2 < 0
  /-- They are more than the first power of one unit. -/
  several : ∀ unit, terms ≠ [(unit, 1)]

/-- Terms with exponent zero are left out. -/
theorem ne_zero_of_mem_arrange (h : (unit, e) ∈ arrange terms) : e ≠ 0 := by
  rw [arrange, List.mem_append, List.mem_filter, List.mem_filter] at h
  rcases h with ⟨-, above⟩ | ⟨-, below⟩
  · exact (of_decide_eq_true above).ne'
  · exact (of_decide_eq_true below).ne

/-- Terms above the line come before those below it. -/
theorem pairwise_arrange (terms : List (MeasureUnit × Int)) :
    (arrange terms).Pairwise fun a b => a.2 < 0 → b.2 < 0 := by
  refine List.pairwise_append.mpr ⟨?_, ?_, ?_⟩
  · refine List.pairwise_filter.mpr (List.pairwise_of_forall ?_)
    intro a b above _ below
    exact absurd (of_decide_eq_true above) below.le.not_gt
  · refine List.pairwise_filter.mpr (List.pairwise_of_forall ?_)
    intro a b _ below _
    exact of_decide_eq_true below
  · intro a _ b mem _
    exact of_decide_eq_true (List.mem_filter.mp mem).2

/-- **Terms that a product is made of** are in normal form. -/
theorem areCanonical_of_normal
    (made : ofTerms terms = derived terms (symbolOf terms) (nameOf terms) (dimensionOf terms))
    (normal : arrange (merge terms) = terms)
    (parts : ∀ unit e, (unit, e) ∈ terms → unit.isProduct = false ∧ unit.isOne = false) :
    AreCanonical terms where
  nonempty := by
    rintro rfl
    cases made
  flat unit e mem := (parts unit e mem).1
  effective unit e mem := (parts unit e mem).2
  nonzero unit e mem := ne_zero_of_mem_arrange (normal ▸ mem)
  distinct := normal ▸ (distinct_merge terms).arrange
  ordered := normal ▸ pairwise_arrange (merge terms)
  several unit := by
    rintro rfl
    have product : unit.isProduct = true := congrArg isProduct made
    rw [(parts unit 1 List.mem_cons_self).1] at product
    cases product

/-! ## Units in normal form at any depth -/

/-- **Canonical units**: each product in them has terms in normal form, and the symbol, the name and
the dimension that are made from these. -/
inductive IsCanonical : MeasureUnit → Prop
  | primitive (symbol name : String) (dimension : Dimension) :
      IsCanonical (primitive symbol name dimension)
  | scaled (symbol name : String) {base : MeasureUnit} (factor : Decimal) (h : IsCanonical base) :
      IsCanonical (scaled symbol name base factor)
  | derived {terms : List (MeasureUnit × Int)} (canonical : AreCanonical terms)
      (h : ∀ unit e, (unit, e) ∈ terms → IsCanonical unit) :
      IsCanonical (derived terms (symbolOf terms) (nameOf terms) (dimensionOf terms))

/-- **The parts of a unit**: the unit itself, the parts of the base of a multiple and those of the
terms of a product. -/
inductive IsPartOf (part : MeasureUnit) : MeasureUnit → Prop
  | self : IsPartOf part part
  | base (symbol name : String) {base : MeasureUnit} (factor : Decimal) (h : IsPartOf part base) :
      IsPartOf part (scaled symbol name base factor)
  | term {terms : List (MeasureUnit × Int)} (symbol name : String) (dimension : Dimension)
      {unit : MeasureUnit} {e : Int} (mem : (unit, e) ∈ terms) (h : IsPartOf part unit) :
      IsPartOf part (derived terms symbol name dimension)

/-- The parts of a canonical unit are canonical. -/
theorem IsCanonical.of_isPartOf {part : MeasureUnit} (inside : part.IsPartOf unit)
    (canonical : unit.IsCanonical) : part.IsCanonical := by
  induction inside with
  | self => exact canonical
  | base _ _ _ _ ih =>
      cases canonical with
      | scaled _ _ _ h => exact ih h
  | term _ _ _ mem _ ih =>
      cases canonical with
      | derived _ h => exact ih (h _ _ mem)

/-- **Units built from canonical ones** that are no products are canonical. -/
theorem BuiltFrom.isCanonical
    (h : BuiltFrom (fun given => given.isProduct = false ∧ given.IsCanonical) unit) :
    unit.IsCanonical := by
  cases h.hasForm fun _ basic => basic.1 with
  | given basic => exact basic.2
  | one => exact .primitive _ _ _
  | product made normal parts =>
      rw [made]
      refine .derived (areCanonical_of_normal made normal ?_) ?_
      · exact fun part e mem => ⟨(parts part e mem).1.1, (parts part e mem).2⟩
      · exact fun part e mem => (parts part e mem).1.2

/-! ## Units over themselves -/

/-- **Opposite terms** are on the other side of the line. -/
def opposite (terms : List (MeasureUnit × Int)) : List (MeasureUnit × Int) :=
  terms.map fun (unit, e) => (unit, e * -1)

/-- Terms that have been cancelled. -/
def zeros (terms : List (MeasureUnit × Int)) : List (MeasureUnit × Int) :=
  terms.map fun (unit, _) => (unit, 0)

/-- Further terms that are absorbed, one after the other. -/
def absorbAll (merged terms : List (MeasureUnit × Int)) : List (MeasureUnit × Int) :=
  terms.foldl (fun merged (unit, e) => absorb unit e merged) merged

theorem merge_append (front back : List (MeasureUnit × Int)) :
    merge (front ++ back) = absorbAll (merge front) back :=
  List.foldl_append

theorem absorbAll_cons (merged : List (MeasureUnit × Int)) (unit : MeasureUnit) (e : Int)
    (rest : List (MeasureUnit × Int)) :
    absorbAll merged ((unit, e) :: rest) = absorbAll (absorb unit e merged) rest := rfl

/-- **Terms are cancelled by their opposites.** -/
theorem absorbAll_opposite {front back : List (MeasureUnit × Int)} (h : Distinct (front ++ back)) :
    absorbAll (zeros front ++ back) (opposite back) = zeros (front ++ back) := by
  -- the terms in front have been cancelled already, and none of them has the unit of the next one
  induction back generalizing front with
  | nil =>
      rw [List.append_nil, List.append_nil]
      rfl
  | cons head rest ih =>
      obtain ⟨unit, e⟩ := head
      have apart : ∀ term ∈ zeros front, term.1.same unit = false := by
        intro term mem
        obtain ⟨before, found, rfl⟩ := List.mem_map.mp mem
        exact (List.pairwise_append.mp h).2.2 before found (unit, e) List.mem_cons_self
      have cancelled : absorb unit (e * -1) ((unit, e) :: rest) = (unit, 0) :: rest := by
        rw [absorb, if_pos unit.same_self, mul_neg_one, add_neg_cancel]
      have next : Distinct ((front ++ [(unit, e)]) ++ rest) := by
        rwa [List.append_assoc, List.singleton_append]
      have first : opposite ((unit, e) :: rest) = (unit, e * -1) :: opposite rest := rfl
      rw [first, absorbAll_cons, absorb_append apart, cancelled]
      simpa [zeros] using ih next

/-- Terms that have been cancelled are left out. -/
theorem arrange_zeros (terms : List (MeasureUnit × Int)) : arrange (zeros terms) = [] := by
  simp [arrange, zeros, List.filter_map, Function.comp_def]

namespace IsComposed

/-- The factors of a composed unit are neither products nor without effect. -/
theorem factor_facts (composed : unit.IsComposed) {factor : MeasureUnit}
    (h : (factor, e) ∈ unit.factors) : factor.isProduct = false ∧ factor.isOne = false :=
  (composed.hasForm fun _ basic => basic).factor_facts (fun _ basic => basic) h

/-- The factors of a composed unit are different. -/
theorem distinct_factors (composed : unit.IsComposed) : Distinct unit.factors := by
  cases composed.hasForm fun _ basic => basic with
  | given basic =>
      rw [factors_of_not_isProduct basic]
      split
      · exact .nil
      · exact List.pairwise_singleton _ _
  | one => exact .nil
  | product made normal _ =>
      rw [made, factors_derived, ← normal]
      exact (distinct_merge _).arrange

/-- **A composed unit over itself** is the unit of plain numbers. -/
theorem divide_self (composed : unit.IsComposed) : unit.divide unit = one := by
  have flat : flatten [(unit, 1), (unit, -1)] = unit.factors ++ opposite unit.factors := by
    simp [flatten, opposite]
  have merged : merge (unit.factors ++ opposite unit.factors) = zeros unit.factors := by
    have distinct : Distinct ([] ++ unit.factors) := composed.distinct_factors
    rw [merge_append, merge_of_distinct composed.distinct_factors]
    exact absorbAll_opposite distinct
  rw [divide, product, flat, merged, arrange_zeros]
  rfl

end IsComposed

/-! ## Inverses of inverses -/

/-- Opposite terms have the same units. -/
theorem Distinct.opposite (h : Distinct terms) : Distinct (opposite terms) :=
  List.pairwise_map.mpr h

theorem mem_opposite (h : (unit, e) ∈ opposite terms) : ∃ f, (unit, f) ∈ terms := by
  obtain ⟨⟨other, f⟩, mem, eq⟩ := List.mem_map.mp h
  obtain ⟨rfl, -⟩ := Prod.mk.inj eq
  exact ⟨f, mem⟩

theorem opposite_opposite (terms : List (MeasureUnit × Int)) :
    opposite (opposite terms) = terms := by
  simp [opposite, Function.comp_def]

/-- Opposite terms have those below the line first. -/
theorem arrange_opposite (terms : List (MeasureUnit × Int)) :
    arrange (opposite terms) =
      opposite ((terms.filter fun (_, e) => e < 0) ++ terms.filter fun (_, e) => 0 < e) := by
  simp [arrange, opposite, List.filter_map, Function.comp_def]

/-- **What has changed sides twice** is where it was, in the order it had. -/
theorem arrange_opposite_twice (terms : List (MeasureUnit × Int)) :
    arrange (opposite (arrange (opposite terms))) = arrange terms := by
  rw [arrange_opposite terms, opposite_opposite]
  simp only [arrange, List.filter_append, List.filter_filter, Bool.and_self, above_and_below,
    below_and_above, List.filter_false, List.append_nil, List.nil_append]

/-- The factors of a product are its terms. -/
theorem factors_ofTerms
    (parts : ∀ unit e, (unit, e) ∈ terms → unit.isProduct = false ∧ unit.isOne = false) :
    (ofTerms terms).factors = terms := by
  rcases ofTerms_cases terms with rfl | ⟨unit, rfl⟩ | made
  · rfl
  · obtain ⟨single, effective⟩ := parts unit 1 List.mem_cons_self
    rw [ofTerms, factors_of_not_isProduct single, effective]
    rfl
  · rw [made, factors_derived]

namespace IsComposed

/-- One over a composed unit is made of the opposites of its factors. -/
theorem inverse_eq (composed : unit.IsComposed) :
    unit.inverse = ofTerms (arrange (opposite unit.factors)) := by
  have flat : flatten [(unit, -1)] = opposite unit.factors := by simp [flatten, opposite]
  rw [inverse, pow, product, flat, merge_of_distinct composed.distinct_factors.opposite]

/-- **One over one over a unit** is that unit, unless it is the unit of plain numbers by another
name. -/
theorem inverse_inverse (composed : unit.IsComposed) (named : unit.isOne = true → unit = one) :
    unit.inverse.inverse = unit := by
  have inverse : unit.inverse.IsComposed := .product (forall_mem_singleton composed)
  have factors : unit.inverse.factors = arrange (opposite unit.factors) := by
    rw [composed.inverse_eq]
    refine factors_ofTerms fun part e mem => ?_
    obtain ⟨f, mem⟩ := mem_opposite (mem_of_mem_arrange mem)
    exact composed.factor_facts mem
  have whole : unit.inverse.inverse = unit.divide one := by
    rw [inverse.inverse_eq, factors, arrange_opposite_twice, divide_one_eq,
      merge_of_distinct composed.distinct_factors]
  rcases composed.divide_one with same | ⟨plain, eq⟩
  · exact whole.trans same
  · rw [whole, eq, named plain]

end IsComposed

/-! ## Reachable units -/

/-- **Reachable units**: root units and multiples of any labels, the hundredths of currencies,
whatever the algebra of units makes of reachable units, and whatever is read with a catalogue of
reachable units. -/
inductive IsReachable : MeasureUnit → Prop
  | primitive (symbol name : String) (dimension : Dimension) :
      IsReachable (primitive symbol name dimension)
  | scaled (symbol name : String) {base : MeasureUnit} (factor : Decimal) (h : IsReachable base) :
      IsReachable (scaled symbol name base factor)
  | subunit {unit part : MeasureUnit} (h : IsReachable unit) (made : unit.subunit = .ok part) :
      IsReachable part
  | product {terms : List (MeasureUnit × Int)}
      (h : ∀ unit e, (unit, e) ∈ terms → IsReachable unit) : IsReachable (product terms)
  | multiply {a b : MeasureUnit} (ha : IsReachable a) (hb : IsReachable b) :
      IsReachable (a.multiply b)
  | divide {a b : MeasureUnit} (ha : IsReachable a) (hb : IsReachable b) : IsReachable (a.divide b)
  | pow {unit : MeasureUnit} (h : IsReachable unit) (n : Int) : IsReachable (unit.pow n)
  | inverse {unit : MeasureUnit} (h : IsReachable unit) : IsReachable unit.inverse
  | read {catalogue : Catalogue} {text : String} {unit : MeasureUnit}
      (entered : ∀ symbol entry, (symbol, entry) ∈ catalogue.entries → IsReachable entry)
      (h : catalogue.read text = .ok unit) : IsReachable unit

namespace IsReachable

/-- The hundredth of a unit is a multiple of it. -/
theorem subunit_eq_ok {unit part : MeasureUnit} (h : unit.subunit = .ok part) :
    ∃ symbol name factor, part = unit.scaled symbol name factor := by
  unfold MeasureUnit.subunit at h
  split at h
  · split at h
    · exact ⟨_, _, _, (Except.ok.inj h).symm⟩
    · cases h
  · cases h

/-- **Reachable units** are built from canonical ones that are no products. -/
theorem builtFrom (reachable : unit.IsReachable) :
    BuiltFrom (fun given => given.isProduct = false ∧ given.IsCanonical) unit := by
  induction reachable with
  | primitive symbol name dimension => exact .given ⟨rfl, .primitive symbol name dimension⟩
  | scaled symbol name factor _ ih => exact .given ⟨rfl, .scaled symbol name factor ih.isCanonical⟩
  | subunit _ made ih =>
      obtain ⟨symbol, name, factor, rfl⟩ := subunit_eq_ok made
      exact .given ⟨rfl, .scaled symbol name factor ih.isCanonical⟩
  | product _ ih => exact .product ih
  | multiply _ _ iha ihb => exact .product (forall_mem_pair iha ihb)
  | divide _ _ iha ihb => exact .product (forall_mem_pair iha ihb)
  | pow _ n ih => exact .product (forall_mem_singleton ih)
  | inverse _ ih => exact .product (forall_mem_singleton ih)
  | read _ h ih =>
      rcases Catalogue.read_eq_ok h with ⟨symbol, entered⟩ | ⟨terms, rfl, entered⟩
      · exact ih symbol _ entered
      · refine .heldProduct (fun _ basic => basic.1) fun part e mem => ?_
        obtain ⟨symbol, found⟩ := entered part e mem
        exact ih symbol part found

/-- **Reachable units are canonical**: every product in them, at any depth, has terms in normal form
and the symbol, the name and the dimension that are made from these.  Over itself each of them is
the unit of plain numbers, and one over one over it is the unit itself, if it is not the unit of
plain numbers by another name. -/
theorem canonical (reachable : unit.IsReachable) :
    (∀ terms symbol name dimension, (derived terms symbol name dimension).IsPartOf unit →
      AreCanonical terms ∧ symbol = symbolOf terms ∧ name = nameOf terms ∧
        dimension = dimensionOf terms) ∧
    unit.divide unit = one ∧
    ((unit.isOne = true → unit = one) → unit.inverse.inverse = unit) := by
  have composed : unit.IsComposed := reachable.builtFrom.mono fun _ basic => basic.1
  refine ⟨?_, composed.divide_self, composed.inverse_inverse⟩
  intro terms symbol name dimension inside
  cases reachable.builtFrom.isCanonical.of_isPartOf inside with
  | derived canonical _ => exact ⟨canonical, rfl, rfl, rfl⟩

end IsReachable

/-- Whether a unit is a multiple of a root unit, at any depth. -/
def isMultiple : MeasureUnit → Bool
  | primitive _ _ _ => true
  | scaled _ _ base _ => base.isMultiple
  | derived _ _ _ _ => false

theorem isReachable_of_isMultiple : (unit : MeasureUnit) → unit.isMultiple = true → unit.IsReachable
  | primitive symbol name dimension, _ => .primitive symbol name dimension
  | scaled symbol name base factor, h =>
    .scaled symbol name factor (isReachable_of_isMultiple base h)
  | derived _ _ _ _, h => nomatch h

/-- The entries of the standard catalogue are reachable. -/
theorem isReachable_of_mem_standard {symbol : String}
    (h : (symbol, unit) ∈ Catalogue.standard.entries) : unit.IsReachable := by
  have entries : Catalogue.standard.entries.all (fun entry => entry.2.isMultiple) = true := by
    decide +kernel
  exact isReachable_of_isMultiple unit (List.all_eq_true.mp entries (symbol, unit) h)

/-- A price in cents for a kilowatt hour, as it is read. -/
theorem canonical_centPerKilowattHour : ∃ price, Catalogue.standard.read "c/kWh" = .ok price ∧
    AreCanonical [(money "EUR" true, 1), (kilowattHour, -1)] ∧ price.divide price = one ∧
      price.inverse.inverse = price := by
  have made := pricePer_eq "EUR" true (by simp [energyUnits] : kilowattHour ∈ energyUnits)
  have read : Catalogue.standard.read "c/kWh" = .ok (pricePer "EUR" true kilowattHour) := rfl
  have reachable : (pricePer "EUR" true kilowattHour).IsReachable :=
    .read (fun _ _ => isReachable_of_mem_standard) read
  obtain ⟨normal, itself, twice⟩ := IsReachable.canonical reachable
  rw [made] at normal
  refine ⟨_, read, (normal _ _ _ _ .self).1, itself, twice fun plain => ?_⟩
  rw [made] at plain
  cases plain

end MeasureUnit

end Tariff
