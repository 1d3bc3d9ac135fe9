import Tariff.Measure.Unit
import Tariff.Proofs.Decimal.Value

/-!
# Units built alike

Two units are the same when they are built alike, where factors count by their
value.  What such units have in common is shown by induction along both of them.

## Main definitions

* `MeasureUnit.HoldsAlike` — relations that follow how units are built

## Main statements

* `MeasureUnit.HoldsAlike.of_same` — such a relation holds between units built alike
* `MeasureUnit.same_comm` — sameness is symmetric
* `MeasureUnit.dimension_eq_of_same` — units built alike measure the same
-/

namespace Tariff.MeasureUnit

/-- **A relation that follows how units are built**, with one between lists of terms. -/
structure HoldsAlike (P : MeasureUnit → MeasureUnit → Prop)
    (Q : List (MeasureUnit × Int) → List (MeasureUnit × Int) → Prop) : Prop where
  /-- It holds between a root unit and itself. -/
  primitive : ∀ symbol name dimension,
    P (.primitive symbol name dimension) (.primitive symbol name dimension)
  /-- It holds between equal multiples. -/
  scaled : ∀ symbol name u v f g, P u v → f.toRat = g.toRat →
    P (.scaled symbol name u f) (.scaled symbol name v g)
  /-- It holds between products when it holds between their terms. -/
  derived : ∀ us vs symbol name dimension, Q us vs →
    P (.derived us symbol name dimension) (.derived vs symbol name dimension)
  /-- It holds between no terms and no terms. -/
  nil : Q [] []
  /-- It holds between lists when it holds between their first terms and their rests. -/
  cons : ∀ u v e us vs, P u v → Q us vs → Q ((u, e) :: us) ((v, e) :: vs)

variable {P : MeasureUnit → MeasureUnit → Prop}
  {Q : List (MeasureUnit × Int) → List (MeasureUnit × Int) → Prop}

mutual

/-- **Induction along units built alike.** -/
theorem HoldsAlike.of_same (holds : HoldsAlike P Q) :
    (a b : MeasureUnit) → a.same b = true → P a b
  | .primitive s n d, .primitive t m e, h => by
    simp only [same, Bool.and_eq_true, beq_iff_eq] at h
    obtain ⟨⟨rfl, rfl⟩, rfl⟩ := h
    exact holds.primitive s n d
  | .scaled s n u f, .scaled t m v g, h => by
    simp only [same, Bool.and_eq_true, beq_iff_eq, Decimal.sameValue_iff] at h
    obtain ⟨⟨⟨rfl, rfl⟩, base⟩, value⟩ := h
    exact holds.scaled s n u v f g (holds.of_same u v base) value
  | .derived us s n d, .derived vs t m e, h => by
    simp only [same, Bool.and_eq_true, beq_iff_eq] at h
    obtain ⟨⟨⟨terms, rfl⟩, rfl⟩, rfl⟩ := h
    exact holds.derived us vs s n d (holds.of_sameTerms us vs terms)
  | .primitive _ _ _, .scaled _ _ _ _, h => by simp [same] at h
  | .primitive _ _ _, .derived _ _ _ _, h => by simp [same] at h
  | .scaled _ _ _ _, .primitive _ _ _, h => by simp [same] at h
  | .scaled _ _ _ _, .derived _ _ _ _, h => by simp [same] at h
  | .derived _ _ _ _, .primitive _ _ _, h => by simp [same] at h
  | .derived _ _ _ _, .scaled _ _ _ _, h => by simp [same] at h

theorem HoldsAlike.of_sameTerms (holds : HoldsAlike P Q) :
    (us vs : List (MeasureUnit × Int)) → sameTerms us vs = true → Q us vs
  | [], [], _ => holds.nil
  | (u, e) :: us, (v, f) :: vs, h => by
    simp only [sameTerms, Bool.and_eq_true, beq_iff_eq] at h
    obtain ⟨⟨alike, rfl⟩, rest⟩ := h
    exact holds.cons u v e us vs (holds.of_same u v alike) (holds.of_sameTerms us vs rest)
  | [], _ :: _, h => by simp [sameTerms] at h
  | _ :: _, [], h => by simp [sameTerms] at h

end

/-- Sameness follows how units are built also the other way round. -/
theorem holdsAlike_swap :
    HoldsAlike (fun a b => b.same a = true) (fun us vs => sameTerms vs us = true) where
  primitive _ _ _ := same_self _
  scaled _ _ _ _ _ _ base value := by simp [same, base, Decimal.sameValue_iff, value]
  derived _ _ _ _ _ terms := by simp [same, terms]
  nil := rfl
  cons _ _ _ _ _ alike rest := by simp [sameTerms, alike, rest]

/-- **Sameness is symmetric.** -/
theorem same_comm (a b : MeasureUnit) : a.same b = b.same a :=
  Bool.eq_iff_iff.mpr ⟨holdsAlike_swap.of_same a b, holdsAlike_swap.of_same b a⟩

/-- **Units built alike measure the same.** -/
theorem dimension_eq_of_same (a b : MeasureUnit) (h : a.same b = true) :
    a.dimension = b.dimension := by
  have holds : HoldsAlike (fun a b => a.dimension = b.dimension) (fun _ _ => True) :=
    { primitive := fun _ _ _ => rfl
      scaled := fun _ _ _ _ _ _ base _ => base
      derived := fun _ _ _ _ _ _ => rfl
      nil := trivial
      cons := fun _ _ _ _ _ _ _ => trivial }
  exact holds.of_same a b h

/-- Units that do not measure the same are not built alike. -/
theorem not_same_of_dimension {a b : MeasureUnit} (ne : a.dimension ≠ b.dimension) :
    a.same b = false := by
  rw [← Bool.not_eq_true]
  exact fun same => ne (dimension_eq_of_same a b same)

end Tariff.MeasureUnit
