import Mathlib.Data.List.Basic
import Mathlib.Data.List.Induction
import Tariff.Measure.Catalogue

/-!
# Units built from given units

## Main definitions

* `MeasureUnit.BuiltFrom` — units built from given ones by products of powers
* `MeasureUnit.IsStandard` — the units built from those of the standard catalogue
* `MeasureUnit.isPositive` — units whose factors are all above zero

## Main statements

* `MeasureUnit.exists_mem_of_mem_merge` — merging brings in no new units
* `MeasureUnit.isPositive_product` — a product of positive units is positive
* `MeasureUnit.IsStandard.isPositive` — standard units are positive

## Design notes

Products, quotients, powers and inverses are all made by `product`, so that one
rule closes a set of units under the algebra of units.  What is to hold of all
units of such a set is shown for the given ones and for products.
-/

namespace Tariff.Catalogue

/-- What is found for a symbol is an entry. -/
theorem mem_entries_of_find? {c : Catalogue} {symbol : String} {unit : MeasureUnit}
    (h : c.find? symbol = some unit) : (symbol, unit) ∈ c.entries := by
  obtain ⟨front, back, eq, -⟩ := List.lookup_eq_some_iff.mp h
  rw [eq]
  exact List.mem_append_right front List.mem_cons_self

end Tariff.Catalogue

namespace Tariff.MeasureUnit

/-- **Units built from given ones** by products of powers. -/
inductive BuiltFrom (given : MeasureUnit → Prop) : MeasureUnit → Prop where
  /-- A given unit. -/
  | given {unit : MeasureUnit} (h : given unit) : BuiltFrom given unit
  /-- A product of powers of such units. -/
  | product {terms : List (MeasureUnit × Int)}
      (h : ∀ unit e, (unit, e) ∈ terms → BuiltFrom given unit) : BuiltFrom given (product terms)

/-- **Standard units** are built from those of the standard catalogue. -/
def IsStandard (unit : MeasureUnit) : Prop :=
  BuiltFrom (fun entry => ∃ symbol, Catalogue.standard.find? symbol = some entry) unit

/-- What holds of two units holds of the units of their powers. -/
theorem forall_mem_pair {P : MeasureUnit → Prop} {a b : MeasureUnit} {m n : Int} (ha : P a)
    (hb : P b) : ∀ unit e, (unit, e) ∈ [(a, m), (b, n)] → P unit := by
  intro unit e mem
  rcases List.mem_pair.mp mem with eq | eq <;> obtain ⟨rfl, -⟩ := Prod.mk.inj eq
  · exact ha
  · exact hb

/-- What holds of a unit holds of that of its power. -/
theorem forall_mem_singleton {P : MeasureUnit → Prop} {a : MeasureUnit} {n : Int} (ha : P a) :
    ∀ unit e, (unit, e) ∈ [(a, n)] → P unit := by
  intro unit e mem
  obtain ⟨rfl, -⟩ := Prod.mk.inj (List.mem_singleton.mp mem)
  exact ha

/-- A quotient of such units is a product of powers of them. -/
theorem BuiltFrom.divide {given : MeasureUnit → Prop} {a b : MeasureUnit}
    (ha : BuiltFrom given a) (hb : BuiltFrom given b) : BuiltFrom given (a.divide b) :=
  .product (forall_mem_pair ha hb)

/-- Units built from other ones in a wider sense. -/
theorem BuiltFrom.mono {given given' : MeasureUnit → Prop} {unit : MeasureUnit}
    (wider : ∀ unit, given unit → given' unit) (h : BuiltFrom given unit) :
    BuiltFrom given' unit := by
  induction h with
  | given basic => exact .given (wider _ basic)
  | product _ ih => exact .product ih

/-! ## Positive units -/

mutual

/-- **Positive units** have only factors above zero. -/
def isPositive : MeasureUnit → Bool
  | primitive _ _ _ => true
  | scaled _ _ base factor => Decimal.zero.below factor && base.isPositive
  | derived terms _ _ _ => arePositive terms

/-- Whether all units of a list of terms are positive. -/
def arePositive : List (MeasureUnit × Int) → Bool
  | [] => true
  | (unit, _) :: rest => unit.isPositive && arePositive rest

end

theorem arePositive_iff {terms : List (MeasureUnit × Int)} :
    arePositive terms = true ↔ ∀ unit e, (unit, e) ∈ terms → unit.isPositive = true := by
  induction terms with
  | nil => simp [arePositive]
  | cons head rest ih =>
      obtain ⟨unit, e⟩ := head
      rw [arePositive, Bool.and_eq_true, ih]
      constructor
      · rintro ⟨first, others⟩ other f mem
        rcases List.mem_cons.mp mem with eq | mem
        · exact (Prod.mk.inj eq).1 ▸ first
        · exact others other f mem
      · intro all
        exact ⟨all unit e List.mem_cons_self,
          fun other f mem => all other f (List.mem_cons_of_mem _ mem)⟩

/-! ## The terms of a product -/

variable {unit : MeasureUnit} {e : Int} {terms : List (MeasureUnit × Int)}

/-- A power that is absorbed brings in no unit but its own. -/
theorem exists_mem_of_mem_absorb {other : MeasureUnit} {f : Int}
    (h : (unit, e) ∈ absorb other f terms) : unit = other ∨ ∃ g, (unit, g) ∈ terms := by
  induction terms with
  | nil =>
      rw [absorb, List.mem_singleton] at h
      exact .inl (Prod.mk.inj h).1
  | cons head rest ih =>
      obtain ⟨first, g⟩ := head
      rw [absorb] at h
      split at h
      · rcases List.mem_cons.mp h with eq | mem
        · exact .inr ⟨g, (Prod.mk.inj eq).1 ▸ List.mem_cons_self⟩
        · exact .inr ⟨e, List.mem_cons_of_mem _ mem⟩
      · rcases List.mem_cons.mp h with eq | mem
        · exact .inr ⟨g, (Prod.mk.inj eq).1 ▸ List.mem_cons_self⟩
        · rcases ih mem with eq | ⟨k, mem⟩
          · exact .inl eq
          · exact .inr ⟨k, List.mem_cons_of_mem _ mem⟩

/-- The last term is absorbed by what the others were merged into. -/
theorem merge_concat (terms : List (MeasureUnit × Int)) (unit : MeasureUnit) (e : Int) :
    merge (terms ++ [(unit, e)]) = absorb unit e (merge terms) := by
  rw [merge, List.foldl_concat]
  rfl

/-- **Merging brings in no new units.** -/
theorem exists_mem_of_mem_merge (h : (unit, e) ∈ merge terms) : ∃ f, (unit, f) ∈ terms := by
  induction terms using List.reverseRecOn generalizing e with
  | nil => cases h
  | append_singleton terms last ih =>
      rw [merge_concat] at h
      rcases exists_mem_of_mem_absorb h with rfl | ⟨f, mem⟩
      · exact ⟨last.2, List.mem_append_right _ List.mem_cons_self⟩
      · obtain ⟨g, found⟩ := ih mem
        exact ⟨g, List.mem_append_left _ found⟩

/-- Arranging leaves out terms and adds none. -/
theorem mem_of_mem_arrange (h : (unit, e) ∈ arrange terms) : (unit, e) ∈ terms := by
  rw [arrange, List.mem_append, List.mem_filter, List.mem_filter] at h
  rcases h with ⟨mem, -⟩ | ⟨mem, -⟩ <;> exact mem

/-- A flat term is a factor of one of the units. -/
theorem exists_factor_of_mem_flatten (h : (unit, e) ∈ flatten terms) :
    ∃ whole f g, (whole, f) ∈ terms ∧ (unit, g) ∈ whole.factors := by
  rw [flatten, List.mem_flatMap] at h
  obtain ⟨⟨whole, f⟩, mem, h⟩ := h
  dsimp only at h
  split at h
  · cases h
  · obtain ⟨⟨factor, g⟩, hfactor, eq⟩ := List.mem_map.mp h
    exact ⟨whole, f, g, mem, (Prod.mk.inj eq).1 ▸ hfactor⟩

/-- **Every term of a product** is a factor of one of the units multiplied. -/
theorem exists_factor_of_mem_arrange (h : (unit, e) ∈ arrange (merge (flatten terms))) :
    ∃ whole f g, (whole, f) ∈ terms ∧ (unit, g) ∈ whole.factors :=
  have ⟨_, mem⟩ := exists_mem_of_mem_merge (mem_of_mem_arrange h)
  exists_factor_of_mem_flatten mem

/-- Holding exponents in 32 bits brings in no new units. -/
theorem exists_mem_of_mem_held (h : (unit, e) ∈ held terms) : ∃ f, (unit, f) ∈ terms := by
  obtain ⟨⟨other, f⟩, mem, eq⟩ := List.mem_map.mp (List.mem_filter.mp h).1
  exact ⟨f, (Prod.mk.inj eq).1 ▸ mem⟩

/-- **Every term that is held** is a factor of one of the units multiplied. -/
theorem exists_factor_of_mem_held (h : (unit, e) ∈ held (merge (held (flatten terms)))) :
    ∃ whole f g, (whole, f) ∈ terms ∧ (unit, g) ∈ whole.factors := by
  obtain ⟨f, mem⟩ := exists_mem_of_mem_held h
  obtain ⟨g, mem⟩ := exists_mem_of_mem_merge mem
  obtain ⟨k, mem⟩ := exists_mem_of_mem_held mem
  exact exists_factor_of_mem_flatten mem

/-! ## Products of positive units -/

/-- The factors of a positive unit are positive. -/
theorem isPositive_of_mem_factors {whole : MeasureUnit} (positive : whole.isPositive = true)
    (h : (unit, e) ∈ whole.factors) : unit.isPositive = true := by
  unfold factors at h
  split at h
  · exact arePositive_iff.mp positive unit e h
  · split at h
    · cases h
    · rw [List.mem_singleton] at h
      exact (Prod.mk.inj h).1 ▸ positive

theorem isPositive_ofTerms (h : arePositive terms = true) : (ofTerms terms).isPositive = true := by
  unfold ofTerms
  split
  · rfl
  · exact arePositive_iff.mp h _ _ List.mem_cons_self
  · exact h

/-- **A product of positive units is positive.** -/
theorem isPositive_product (h : ∀ unit e, (unit, e) ∈ terms → unit.isPositive = true) :
    (product terms).isPositive = true := by
  refine isPositive_ofTerms (arePositive_iff.mpr ?_)
  intro unit e mem
  obtain ⟨whole, _, _, memTerms, memFactors⟩ := exists_factor_of_mem_arrange mem
  exact isPositive_of_mem_factors (h whole _ memTerms) memFactors

theorem isPositive_multiply {a b : MeasureUnit} (ha : a.isPositive = true)
    (hb : b.isPositive = true) : (a.multiply b).isPositive = true :=
  isPositive_product (forall_mem_pair ha hb)

theorem isPositive_divide {a b : MeasureUnit} (ha : a.isPositive = true)
    (hb : b.isPositive = true) : (a.divide b).isPositive = true :=
  isPositive_product (forall_mem_pair ha hb)

/-- **Standard units are positive.** -/
theorem IsStandard.isPositive (h : unit.IsStandard) : unit.isPositive = true := by
  induction h with
  | given found =>
      obtain ⟨symbol, found⟩ := found
      -- the catalogue is finite, so that each of its units can be looked at
      have entries : Catalogue.standard.entries.all (fun entry => entry.2.isPositive) = true := by
        decide +kernel
      exact List.all_eq_true.mp entries (symbol, _) (Catalogue.mem_entries_of_find? found)
  | product _ ih => exact isPositive_product ih

end Tariff.MeasureUnit
