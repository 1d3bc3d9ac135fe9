import Tariff.Proofs.Failure
import Tariff.Proofs.Measure.Quantity

/-!
# How calculations with quantities fail

Between units that convert, a calculation with quantities lacks nothing but room.
The one exception is a factor so small that its product with others was stored as
zero: a conversion with it below the line divides by zero.

## Main definitions

* `MeasureUnit.DividesByZero` — a conversion whose denominator was stored as zero
* `MeasureError.IsArithmetic` — no room for a result, or a division by zero

## Main statements

* `Quantity.convert_fails` — the conversion of a quantity
* `Quantity.add_fails` — a sum of quantities in one unit
-/

namespace Tariff

open Outcome

/-- **A conversion that divides by zero.**  Its denominator was stored as zero. -/
def MeasureUnit.DividesByZero (source target : MeasureUnit) : Prop :=
  ∃ conversion, source.conversionTo target = .ok conversion ∧ conversion.denominator.isZero = true

/-- **Errors of arithmetic**: there is no room for a result, or where it is possible, a
division by zero. -/
def MeasureError.IsArithmetic (possible : Prop) (e : MeasureError) : Prop :=
  e = .overflow ∨ e = .divisionByZero ∧ possible

namespace MeasureError

variable {possible other : Prop} {e : MeasureError}

theorem isArithmetic_overflow (h : e = .overflow) : e.IsArithmetic possible :=
  .inl h

theorem IsArithmetic.imp (h : e.IsArithmetic possible) (wider : possible → other) :
    e.IsArithmetic other :=
  Or.imp id (And.imp id wider) h

end MeasureError

/-! ## Decimals under a precision -/

namespace Precision

variable {p : Precision} {a b : Decimal}

theorem round_fails (d : Decimal) : FailsBy (· = .overflow) (p.round d) :=
  .orOverflow _

theorem add_fails (a b : Decimal) : FailsBy (· = .overflow) (p.add a b) :=
  (FailsBy.orOverflow _).bind fun sum _ => p.round_fails sum

theorem subtract_fails (a b : Decimal) : FailsBy (· = .overflow) (p.subtract a b) :=
  (FailsBy.orOverflow _).bind fun difference _ => p.round_fails difference

theorem multiply_fails (a b : Decimal) : FailsBy (· = .overflow) (p.multiply a b) :=
  (FailsBy.orOverflow _).bind fun product _ => p.round_fails product

theorem divide_fails (nonzero : ¬ b.isZero = true) (a : Decimal) :
    FailsBy (· = .overflow) (p.divide a b) := by
  rw [divide, if_neg nonzero]
  exact (FailsBy.orOverflow _).bind fun quotient _ => p.round_fails quotient

end Precision

/-! ## Conversions -/

/-- A conversion divides by zero only if its denominator is zero. -/
theorem Conversion.apply_fails (c : Conversion) (p : Precision) (value : Decimal) :
    FailsBy (·.IsArithmetic (c.denominator.isZero = true)) (c.apply p value) := by
  rw [apply]
  split
  · exact .ok value
  · split
    · next zero => exact .error (.inr ⟨rfl, zero⟩)
    · next nonzero =>
        refine ((FailsBy.orOverflow _).imp fun _ => MeasureError.isArithmetic_overflow).bind ?_
        intro scaled _
        exact (Precision.divide_fails nonzero scaled).imp fun _ => MeasureError.isArithmetic_overflow

namespace Quantity

variable {a b q : Quantity} {unit : MeasureUnit} {p : Precision}

/-- **The conversion of a quantity** into a unit that is missing nothing but room. -/
theorem convert_fails (h : FailsBy (· = .overflow) (q.unit.conversionTo unit)) (p : Precision) :
    FailsBy (·.IsArithmetic (q.unit.DividesByZero unit)) (q.convert unit p) := by
  refine FailsBy.bind (h.imp fun _ => MeasureError.isArithmetic_overflow) ?_
  intro conversion hconversion
  refine FailsBy.bind ?_ fun _ _ => .pure _
  refine (conversion.apply_fails p q.value).imp ?_
  intro e arithmetic
  exact arithmetic.imp fun zero => ⟨conversion, hconversion, zero⟩

/-- **A sum of quantities in one unit** lacks nothing but room. -/
theorem add_fails (same : b.unit = a.unit) (p : Precision) : FailsBy (· = .overflow) (a.add b p) := by
  have dimension : checkDimension a b = .ok ⟨⟩ := by
    rw [checkDimension_eq_ok, Quantity.dimension, Quantity.dimension, same]
  have told : b.valueIn a p = .ok b.value := by
    rw [valueIn_eq_ok, ← same, convert_self]
  refine .after dimension (.after told ?_)
  exact FailsBy.bind (Precision.add_fails a.value b.value) fun _ _ => .pure _

/-- A product lacks nothing but room. -/
theorem multiply_fails (a b : Quantity) (p : Precision) :
    FailsBy (· = .overflow) (a.multiply b p) :=
  FailsBy.bind (Precision.multiply_fails a.value b.value) fun _ _ => .pure _

end Quantity

end Tariff
