import Mathlib.Data.Int.ModEq
import Tariff.Proofs.Measure.NormalForm

/-!
# Weights of products

Many a number is counted over the factors of a product, each as often as its exponent
says: the exponent of a root unit, or that of a base of the dimension.  Bringing a
product into normal form changes none of them.

## Main definitions

* `MeasureUnit.weigh` — a number for each unit, added up over powers of units
* `MeasureUnit.IsWeight` — numbers that a product takes from its terms

## Main statements

* `MeasureUnit.weigh_factors` — a unit that is no product weighs as much as its factors
* `MeasureUnit.weigh_arranged` — the normal form weighs as much as the product
* `MeasureUnit.IsWeight.product` — a product weighs as much as its factors together
* `MeasureUnit.IsWeight.heldProduct` — in 32 bits it does so up to multiples of `2 ^ 32`

## Design notes

Two things are asked of a weight: units built alike weigh the same, since they are
merged, and the factors of a unit weigh what the unit does, since products are taken
apart.
-/

namespace Tariff.MeasureUnit

/-- **Weight.**  A number for each unit, added up over powers of units. -/
def weigh (weight : MeasureUnit → Int) : List (MeasureUnit × Int) → Int
  | [] => 0
  | (unit, e) :: rest => weight unit * e + weigh weight rest

variable {weight : MeasureUnit → Int} {unit : MeasureUnit} {terms : List (MeasureUnit × Int)}

theorem weigh_append (a b : List (MeasureUnit × Int)) :
    weigh weight (a ++ b) = weigh weight a + weigh weight b := by
  induction a with
  | nil => rw [List.nil_append, weigh, Int.zero_add]
  | cons head rest ih =>
      rw [List.cons_append, weigh, weigh, ih, Int.add_assoc]

/-- Powers of terms weigh as many times as much. -/
theorem weigh_scale (terms : List (MeasureUnit × Int)) (n : Int) :
    weigh weight (terms.map fun (factor, f) => (factor, f * n)) = weigh weight terms * n := by
  induction terms with
  | nil => rw [List.map_nil, weigh, Int.zero_mul]
  | cons head rest ih =>
      rw [List.map_cons, weigh, weigh, ih, Int.add_mul, Int.mul_assoc]

theorem weigh_singleton (unit : MeasureUnit) : weigh weight [(unit, 1)] = weight unit := by
  rw [weigh, weigh, Int.mul_one, Int.add_zero]

/-- **A unit that is no product** weighs as much as its factors. -/
theorem weigh_factors (single : unit.isProduct = false)
    (plain : unit.isOne = true → weight unit = 0) :
    weigh weight unit.factors = weight unit := by
  rw [factors_of_not_isProduct single]
  split
  · next one => exact (plain one).symm
  · exact weigh_singleton unit

/-- Taking products apart keeps the weight. -/
theorem weigh_flatten
    (whole : ∀ unit e, (unit, e) ∈ terms → weigh weight unit.factors = weight unit) :
    weigh weight (flatten terms) = weigh weight terms := by
  induction terms with
  | nil => rfl
  | cons head rest ih =>
      obtain ⟨unit, e⟩ := head
      have power : weigh weight (if e = 0 then [] else
          unit.factors.map fun (factor, f) => (factor, f * e)) = weight unit * e := by
        split
        · next zero => rw [zero, weigh, Int.mul_zero]
        · rw [weigh_scale, whole unit e List.mem_cons_self]
      calc weigh weight (flatten ((unit, e) :: rest))
          = weigh weight (if e = 0 then [] else
              unit.factors.map fun (factor, f) => (factor, f * e)) +
                weigh weight (flatten rest) := weigh_append _ _
        _ = weigh weight ((unit, e) :: rest) := by
            rw [power, ih fun unit e mem => whole unit e (List.mem_cons_of_mem _ mem), weigh]

variable (alike : ∀ a b : MeasureUnit, a.same b = true → weight a = weight b)
include alike

/-- A power that is absorbed adds its weight. -/
theorem weigh_absorb (unit : MeasureUnit) (e : Int) (terms : List (MeasureUnit × Int)) :
    weigh weight (absorb unit e terms) = weigh weight terms + weight unit * e := by
  induction terms with
  | nil => simp [absorb, weigh]
  | cons head rest ih =>
      obtain ⟨other, f⟩ := head
      rw [absorb]
      split
      · next same =>
          rw [weigh, weigh, alike other unit same, Int.mul_add]
          omega
      · rw [weigh, weigh, ih, Int.add_assoc]

/-- Merging keeps the weight. -/
theorem weigh_merge (terms : List (MeasureUnit × Int)) :
    weigh weight (merge terms) = weigh weight terms := by
  induction terms using List.reverseRecOn with
  | nil => rfl
  | append_singleton terms last ih =>
      rw [merge_concat, weigh_absorb alike, ih, weigh_append, weigh, weigh, Int.add_zero]

omit alike in
/-- Arranging leaves out powers of zero only. -/
theorem weigh_arrange (terms : List (MeasureUnit × Int)) :
    weigh weight (arrange terms) = weigh weight terms := by
  rw [arrange, weigh_append]
  induction terms with
  | nil => rfl
  | cons head rest ih =>
      obtain ⟨unit, e⟩ := head
      rcases lt_trichotomy e 0 with neg | rfl | pos
      · simp [neg, not_lt.mpr neg.le, weigh, ← ih]
        omega
      · simp [weigh, ← ih]
      · simp [pos, not_lt.mpr pos.le, weigh, ← ih]
        omega

omit alike in
/-- **Exponents that wrap around** in 32 bits change a weight by a multiple of `2 ^ 32`. -/
theorem weigh_held (terms : List (MeasureUnit × Int)) :
    weigh weight (held terms) ≡ weigh weight terms [ZMOD 2 ^ 32] := by
  induction terms with
  | nil => rfl
  | cons head rest ih =>
      obtain ⟨unit, e⟩ := head
      have wraps : e.bmod 4294967296 ≡ e [ZMOD 2 ^ 32] := Int.bmod_emod
      have first : weigh weight (held ((unit, e) :: rest)) =
          weight unit * e.bmod 4294967296 + weigh weight (held rest) := by
        simp only [held, List.map_cons, List.filter_cons]
        split
        · rw [weigh]
        · next vanishes =>
            have zero : e.bmod 4294967296 = 0 := by simpa using vanishes
            rw [zero, Int.mul_zero, Int.zero_add]
      rw [first, weigh]
      exact (wraps.mul_left _).add ih

/-- **The normal form** weighs as much as the product. -/
theorem weigh_arranged
    (whole : ∀ unit e, (unit, e) ∈ terms → weigh weight unit.factors = weight unit) :
    weigh weight (arrange (merge (flatten terms))) = weigh weight terms := by
  rw [weigh_arrange, weigh_merge alike, weigh_flatten whole]

omit alike

/-! ## Weights of units -/

/-- **A weight** is a number that a product takes from its terms. -/
structure IsWeight (weight : MeasureUnit → Int) : Prop where
  /-- Units built alike weigh the same. -/
  alike : ∀ a b : MeasureUnit, a.same b = true → weight a = weight b
  /-- Plain numbers weigh nothing. -/
  plain : ∀ unit : MeasureUnit, unit.isOne = true → weight unit = 0
  /-- A product weighs as much as its terms. -/
  derived : ∀ terms symbol name dimension,
    weight (derived terms symbol name dimension) = weigh weight terms

namespace IsWeight

/-- A unit weighs as much as its factors. -/
theorem factors (h : IsWeight weight) (unit : MeasureUnit) :
    weigh weight unit.factors = weight unit := by
  cases unit with
  | primitive _ _ _ => exact weigh_factors rfl (h.plain _)
  | scaled _ _ _ _ => exact weigh_factors rfl (h.plain _)
  | derived terms _ _ _ => exact (h.derived terms _ _ _).symm

theorem ofTerms (h : IsWeight weight) (terms : List (MeasureUnit × Int)) :
    weight (ofTerms terms) = weigh weight terms := by
  rcases ofTerms_cases terms with rfl | ⟨unit, rfl⟩ | made
  · exact h.plain _ rfl
  · rw [MeasureUnit.ofTerms, weigh_singleton]
  · rw [made, h.derived]

/-- **A product** weighs as much as its factors together, however they are nested. -/
theorem product (h : IsWeight weight) (terms : List (MeasureUnit × Int)) :
    weight (product terms) = weigh weight terms := by
  rw [MeasureUnit.product, h.ofTerms, weigh_arranged h.alike fun unit _ _ => h.factors unit]

/-- **A product made in 32 bits** weighs as much as its factors together, up to a multiple of
`2 ^ 32`. -/
theorem heldProduct (h : IsWeight weight) (terms : List (MeasureUnit × Int)) :
    weight (heldProduct terms) ≡ weigh weight terms [ZMOD 2 ^ 32] := by
  calc weight (MeasureUnit.heldProduct terms)
      = weigh weight (held (merge (held (flatten terms)))) := h.product _
    _ ≡ weigh weight (merge (held (flatten terms))) [ZMOD 2 ^ 32] := weigh_held _
    _ = weigh weight (held (flatten terms)) := weigh_merge h.alike _
    _ ≡ weigh weight (flatten terms) [ZMOD 2 ^ 32] := weigh_held _
    _ = weigh weight terms := weigh_flatten fun unit _ _ => h.factors unit

end IsWeight

end Tariff.MeasureUnit
