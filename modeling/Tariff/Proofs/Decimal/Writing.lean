import Tariff.Proofs.Agreement
import Tariff.Proofs.Decimal.Room

/-!
# Decimals written in different ways

The number of zeros behind a decimal is kept and shown, and operations look at it: it
says where the point stands in a result and how many digits a mantissa has to lose.
None of this shows in the numbers that results denote, nor in whether there are any.

## Main definitions

* `Decimal.Alike` — decimals that denote one number

## Main statements

* `Decimal.below_congr` — the order of decimals
* `Decimal.add?_alike`, `subtract?_alike`, `multiply?_alike`,
  `roundSignificant?_alike` — operations on decimals

## Design notes

Quotients are missing here.  How they are rounded may depend on the writing, and so
they need a condition, which belongs to a later module.
-/

namespace Tariff

namespace Decimal

variable {a b x y : Decimal}

/-- **Decimals that denote one number**, however each of them is written. -/
def Alike (a b : Decimal) : Prop :=
  a.toRat = b.toRat

instance (a b : Decimal) : Decidable (a.Alike b) :=
  inferInstanceAs (Decidable (a.toRat = b.toRat))

theorem Alike.refl (a : Decimal) : a.Alike a := rfl

/-! ## Questions -/

theorem isZero_congr (h : a.Alike x) : a.isZero = x.isZero := by
  rw [Bool.eq_iff_iff, isZero_iff, isZero_iff, h]

theorem isNegative_congr (h : a.Alike x) : a.isNegative = x.isNegative := by
  rw [Bool.eq_iff_iff, isNegative_iff, isNegative_iff, h]

/-- **The order of decimals** is that of the numbers they denote. -/
theorem below_congr (ha : a.Alike x) (hb : b.Alike y) : a.below b = x.below y := by
  rw [Bool.eq_iff_iff, below_iff, below_iff, ha, hb]

/-! ## Operations -/

theorem negate_alike (h : a.Alike x) : a.negate.Alike x.negate := by
  rw [Alike, toRat_negate, toRat_negate, h]

theorem normalize_alike (h : a.Alike x) : a.normalize.Alike x.normalize := by
  rw [Alike, toRat_normalize, toRat_normalize, h]

theorem add?_alike (ha : a.Alike x) (hb : b.Alike y) :
    Option.Rel Alike (a.add? b) (x.add? y) := by
  refine Outcome.rel_of_isSome ?_ ?_
  · rw [add?_isSome_iff, add?_isSome_iff, ha, hb]
  · intro sum other hsum hother
    rw [Alike, toRat_add? hsum, toRat_add? hother, ha, hb]

theorem subtract?_alike (ha : a.Alike x) (hb : b.Alike y) :
    Option.Rel Alike (a.subtract? b) (x.subtract? y) :=
  add?_alike ha (negate_alike hb)

theorem multiply?_alike (ha : a.Alike x) (hb : b.Alike y) :
    Option.Rel Alike (a.multiply? b) (x.multiply? y) := by
  refine Outcome.rel_of_isSome ?_ ?_
  · rw [multiply?_isSome_iff, multiply?_isSome_iff, ha, hb]
  · intro product other hproduct hother
    rw [Alike, toRat_multiply? hproduct, toRat_multiply? hother, ha, hb]

/-- Rounding to digits counts those of the number, not those of the mantissa. -/
theorem roundSignificant?_alike {mode : RoundingMode} {count : ℕ} (few : count ≤ 28)
    (h : mode.toDigits count a.toRat = mode.toDigits count x.toRat) :
    Option.Rel Alike (a.roundSignificant? mode count) (x.roundSignificant? mode count) := by
  refine Outcome.rel_of_isSome ?_ ?_
  · rw [roundSignificant?_isSome_iff few, roundSignificant?_isSome_iff few, h]
  · intro rounded other hrounded hother
    rw [Alike, toRat_roundSignificant? hrounded, toRat_roundSignificant? hother, h]

end Decimal

end Tariff
