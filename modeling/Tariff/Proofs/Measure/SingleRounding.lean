import Mathlib.Data.Int.ModEq
import Tariff.Proofs.Measure.Uncut
import Tariff.Proofs.Rounding.Twice

/-!
# How often a converted value is rounded

A converted value is meant to be rounded once, to the digits of the precision.  Before that its
product and its quotient are stored, and each of them may lose digits.  What is rounded in the end
is near to the exact value, and is rounded like it unless a number of few digits lies in between.

## Main definitions

* `Conversion.exactValue` — a value times the factor of a conversion

## Main statements

* `Conversion.apply_rounds` — how near the number that is rounded is to the exact value, and when
  the value is rounded once
* `Conversion.apply_rounds_twice` — a value that is rounded twice

## Design notes

The modes do not matter here.  At most precisions there is much room between the digits that are
kept and those that are stored, and a value is rounded once unless it lies just beside a number of
one digit more.  If it is such a number itself, it has to be stored as it is.
-/

namespace Tariff.Conversion

open RoundingMode
open Decimal (IsKept)

variable {c : Conversion} {p : Precision} {value result : Decimal}

/-- **The exact value** of a conversion. -/
def exactValue (c : Conversion) (x : ℚ) : ℚ :=
  x * c.numerator.toRat / c.denominator.toRat

/-- A converted value is the quotient of a stored product, stored to the nearest number and then
rounded. -/
theorem exists_stored (different : ¬ c.isIdentity = true) (h : c.apply p value = .ok result) :
    ∃ store : RoundingMode, store.isNearest = true ∧ result.toRat = p.mode.toDigits p.digits
      (store.stored (halfEven.stored (value.toRat * c.numerator.toRat) maxPlaces /
        c.denominator.toRat) maxPlaces) := by
  obtain ⟨-, scaled, multiplied, divided⟩ :=
    (apply_eq_ok h).resolve_left fun same => different same.1
  refine ⟨_, Decimal.isNearest_quotientMode scaled c.denominator, ?_⟩
  rw [Precision.toRat_divide_by divided, Decimal.toRat_multiply? multiplied]

/-- **How often a converted value is rounded.**  The number that is rounded to the digits of the
precision is off from the exact value by at most the slack of a stored product and quotient.  The
value is rounded once where the exact value is farther than that from all numbers of one digit more.
Where the product is stored as it is, it is enough that the exact value is stored as it is too, or
that it is farther than half a place from these numbers. -/
theorem apply_rounds (different : ¬ c.isIdentity = true) (h : c.apply p value = .ok result) :
    (∃ once, |once - c.exactValue value.toRat| ≤
        quotientSlack (value.toRat * c.numerator.toRat) c.denominator.toRat ∧
      result.toRat = p.mode.toDigits p.digits once) ∧
    (FarFromDigits (p.digits + 1)
        (quotientSlack (value.toRat * c.numerator.toRat) c.denominator.toRat)
        (c.exactValue value.toRat) →
      result.toRat = p.mode.toDigits p.digits (c.exactValue value.toRat)) ∧
    (IsKept (value.toRat * c.numerator.toRat) →
      IsKept (c.exactValue value.toRat) ∨ FarFromDigits (p.digits + 1)
        (storedStep (c.exactValue value.toRat) / 2) (c.exactValue value.toRat) →
      result.toRat = p.mode.toDigits p.digits (c.exactValue value.toRat)) := by
  obtain ⟨store, nearest, rounded⟩ := exists_stored different h
  have near := abs_stored_quotient_sub_le (rfl : halfEven.isNearest = true) nearest
    (value.toRat * c.numerator.toRat) c.denominator.toRat
  refine ⟨⟨_, near, rounded⟩, ?_, ?_⟩
  · intro far
    rw [rounded]
    exact far.toDigits_eq near p.mode
  · intro product quotient
    rw [product.stored_eq] at rounded
    rcases quotient with kept | far
    · rw [rounded]
      exact congrArg _ (kept.stored_eq store)
    · rw [rounded]
      exact far.toDigits_eq (abs_stored_sub_le nearest _) p.mode

/-! ## Hours and watt hours -/

open MeasureUnit

/-- A third has no end. -/
theorem not_hasDigits_fiveThirds (count : ℕ) : ¬ HasDigits count (5 / 3) := by
  rintro ⟨n, e, eq, -⟩
  obtain ⟨k, hk⟩ := Int.eq_ofNat_of_zero_le (neg_nonneg.mpr (min_le_right e 0))
  obtain ⟨m, whole⟩ := OnGrid.mono ⟨n, eq⟩ (min_le_left e 0)
  have power : (0 : ℚ) < 10 ^ k := by positivity
  rw [← neg_neg (min e 0), hk, zpow_neg, zpow_natCast, ← div_eq_mul_inv,
    eq_div_iff power.ne'] at whole
  have threefold : (5 * 10 ^ k : ℤ) = 3 * m := by
    have : (5 * 10 ^ k : ℚ) = 3 * m := by linarith
    exact_mod_cast this
  have rest : (10 : ℤ) ^ k % 3 = 1 := by
    have powers := (by decide : (10 : ℤ) ≡ 1 [ZMOD 3]).pow k
    rwa [one_pow] at powers
  omega

/-- Five thirds are far from all numbers of seventeen digits. -/
theorem farFromDigits_fiveThirds : FarFromDigits 17 (quotientSlack 6000 3600) (5 / 3) := by
  have sizes : size 6000 = 3 ∧ size (5 / 3) = 0 := by
    constructor <;> apply size_eq <;> norm_num
  have slack : quotientSlack 6000 3600 = (10 ^ (-24 : ℤ) / 3600 + 10 * 10 ^ (-27 : ℤ)) / 2 := by
    have quotient : (6000 / 3600 : ℚ) = 5 / 3 := by norm_num
    rw [quotientSlack, quotient, storedStep, storedStep, sizes.1, sizes.2]
    norm_num
  have grid : OnGrid (-16) ((3 : ℕ) * (5 / 3)) :=
    OnGrid.mono ⟨5, by norm_num⟩ (by decide : (-16 : ℤ) ≤ 0)
  refine farFromDigits_of_grid (by decide) (by decide) (by norm_num) grid ?_
    (not_hasDigits_fiveThirds 17) ?_
  · rw [sizes.2]
    decide
  · rw [slack]
    norm_num

/-- A hundred minutes are five thirds of an hour, and are rounded once. -/
theorem apply_rounds_minutes : ∃ c result, minute.conversionTo hour = .ok c ∧
    c.apply .sixteen (.ofDigits 100 0) = .ok result ∧
      result.toRat = halfEven.toDigits 16 (5 / 3) := by
  have values : (Decimal.ofDigits 100 0).toRat = 100 ∧ (Decimal.ofDigits 60 0).toRat = 60 ∧
      (Decimal.ofDigits 3600 0).toRat = 3600 := by
    decide +kernel
  have applied : apply ⟨.ofDigits 60 0, .ofDigits 3600 0⟩ .sixteen (.ofDigits 100 0) =
      .ok (.ofDigits 1666666666666667 15) := by
    decide +kernel
  obtain ⟨-, once, -⟩ := apply_rounds (by decide) applied
  have product : (100 * 60 : ℚ) = 6000 := by norm_num
  have exact : (6000 / 3600 : ℚ) = 5 / 3 := by norm_num
  rw [exactValue, values.1, values.2.1, values.2.2, product, exact] at once
  exact ⟨_, _, by decide +kernel, applied, once farFromDigits_fiveThirds⟩

/-- **A value that is rounded twice.**  A watt hour and a little more than five units of its
seventeenth digit lose what is beyond these in their quotient, and are then rounded from the
middle. -/
theorem apply_rounds_twice : ∃ c value result, wattHour.conversionTo kilowattHour = .ok c ∧
    ¬ c.isIdentity = true ∧ c.apply .sixteen value = .ok result ∧
      result.toRat ≠ halfEven.toDigits 16 (c.exactValue value.toRat) := by
  have values : (Decimal.ofDigits 10000000000000005000000000001 28).toRat =
        1 + 5000000000001 * 10 ^ (-28 : ℤ) ∧
      (Decimal.ofDigits 3600 0).toRat = 3600 ∧ (Decimal.ofDigits 3600000 0).toRat = 3600000 ∧
      (Decimal.ofDigits 1000000000000000 18).toRat = 10 ^ (-3 : ℤ) := by
    decide +kernel
  refine ⟨⟨.ofDigits 3600 0, .ofDigits 3600000 0⟩, .ofDigits 10000000000000005000000000001 28,
    .ofDigits 1000000000000000 18, by decide +kernel, by decide, by decide +kernel, ?_⟩
  have exact : exactValue ⟨.ofDigits 3600 0, .ofDigits 3600000 0⟩
      (Decimal.ofDigits 10000000000000005000000000001 28).toRat =
        10 ^ (-3 : ℤ) + 5000000000001 * 10 ^ (-31 : ℤ) := by
    rw [exactValue, values.1, values.2.1, values.2.2.1]
    norm_num
  have size : size (10 ^ (-3 : ℤ) + 5000000000001 * 10 ^ (-31 : ℤ)) = -3 := by
    apply size_eq <;> norm_num
  rw [exact, values.2.2.2]
  intro same
  -- half a step is five units of the seventeenth digit, and the value is off by more
  have half := abs_toDigits_sub_le (rfl : halfEven.isNearest = true) 16
    (10 ^ (-3 : ℤ) + 5000000000001 * 10 ^ (-31 : ℤ))
  rw [← same, size] at half
  norm_num at half

end Tariff.Conversion
