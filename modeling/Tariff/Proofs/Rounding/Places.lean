import Mathlib.Algebra.Order.Field.Power
import Tariff.Proofs.Rounding.Whole

/-!
# Rounding rational numbers to places and to digits

A number is rounded to places after the point by rounding a multiple of it to a
whole number, and to significant digits by rounding to as many places as its
size asks for.

## Main definitions

* `RoundingMode.atPlaces` — a number rounded to places after the point
* `RoundingMode.toDigits` — a number rounded to significant digits

## Main statements

* `RoundingMode.atPlaces_mono`, `RoundingMode.toDigits_mono` — both keep the
  order of numbers
* `RoundingMode.toDigits_sign` — rounding to digits does not change the sign
* `RoundingMode.toDigits_of_digits` — a number of few digits is not changed

## Design notes

Places are counted by an integer: a negative number of places rounds in front
of the point.

The places of `toDigits` change from one power of ten to the next, so its order
does not follow from that of `atPlaces` alone.  What carries it across is that
a power of ten has a place on the finer grid below it and on the coarser one
above it, so that no number is rounded past it.
-/

namespace Tariff.RoundingMode

/-! ## Places -/

/-- **Places.**  A number rounded to places after the point. -/
def atPlaces (mode : RoundingMode) (places : ℤ) (x : ℚ) : ℚ :=
  mode.whole (x * 10 ^ places) / 10 ^ places

/-- Rounding to places keeps the order of numbers. -/
theorem atPlaces_mono (mode : RoundingMode) (places : ℤ) :
    Monotone (mode.atPlaces places) := by
  intro x y le
  have pos : (0 : ℚ) < 10 ^ places := by positivity
  refine div_le_div_of_nonneg_right ?_ pos.le
  exact_mod_cast mode.whole_mono (mul_le_mul_of_nonneg_right le pos.le)

/-- Different numbers keep their order under two nearest modes. -/
theorem atPlaces_le_atPlaces_of_lt {mode other : RoundingMode} (nearest : mode.isNearest = true)
    (nearest' : other.isNearest = true) (places : ℤ) {x y : ℚ} (lt : x < y) :
    mode.atPlaces places x ≤ other.atPlaces places y := by
  have pos : (0 : ℚ) < 10 ^ places := by positivity
  refine div_le_div_of_nonneg_right ?_ pos.le
  exact_mod_cast whole_le_whole_of_lt nearest nearest' (mul_lt_mul_of_pos_right lt pos)

theorem atPlaces_neg (mode : RoundingMode) (places : ℤ) (x : ℚ) :
    mode.atPlaces places (-x) = -mode.mirror.atPlaces places x := by
  rw [atPlaces, atPlaces, neg_mul, whole_neg, Int.cast_neg, neg_div]

/-- A number that fills no more places is not changed. -/
theorem atPlaces_of_whole (mode : RoundingMode) {places : ℤ} {x : ℚ} {n : ℤ}
    (eq : x * 10 ^ places = n) : mode.atPlaces places x = x := by
  have pos : (0 : ℚ) < 10 ^ places := by positivity
  rw [atPlaces, eq, whole_intCast, ← eq, mul_div_cancel_right₀ _ pos.ne']

@[simp] theorem atPlaces_zero (mode : RoundingMode) (places : ℤ) :
    mode.atPlaces places 0 = 0 :=
  mode.atPlaces_of_whole (n := 0) (by simp)

/-- A power of ten fills no more places than any finer grid has. -/
theorem atPlaces_zpow (mode : RoundingMode) {places exponent : ℤ}
    (fine : 0 ≤ exponent + places) :
    mode.atPlaces places (10 ^ exponent) = 10 ^ exponent := by
  obtain ⟨n, eq⟩ := Int.eq_ofNat_of_zero_le fine
  refine mode.atPlaces_of_whole (n := 10 ^ n) ?_
  rw [← zpow_add₀ (by norm_num), eq]
  simp

theorem atPlaces_nonneg (mode : RoundingMode) (places : ℤ) {x : ℚ} (nonneg : 0 ≤ x) :
    0 ≤ mode.atPlaces places x :=
  (mode.atPlaces_zero places).symm.trans_le (mode.atPlaces_mono places nonneg)

/-! ## The size of a number -/

/-- The exponent of the greatest power of ten that a number reaches. -/
def size (x : ℚ) : ℤ :=
  Int.log 10 |x|

@[simp] theorem size_neg (x : ℚ) : size (-x) = size x := by
  rw [size, size, abs_neg]

theorem zpow_size_le {x : ℚ} (ne : x ≠ 0) : (10 : ℚ) ^ size x ≤ |x| := by
  simpa [size] using Int.zpow_log_le_self (b := 10) (by norm_num) (abs_pos.mpr ne)

theorem lt_zpow_size (x : ℚ) : |x| < (10 : ℚ) ^ (size x + 1) := by
  simpa [size] using Int.lt_zpow_succ_log_self (b := 10) (by norm_num) |x|

/-- A number below a power of ten is of a lesser size. -/
theorem size_lt_iff {x : ℚ} (ne : x ≠ 0) {exponent : ℤ} :
    size x < exponent ↔ |x| < (10 : ℚ) ^ exponent := by
  have := Int.lt_zpow_iff_log_lt (b := 10) (x := exponent) (by norm_num) (abs_pos.mpr ne)
  simpa [size] using this.symm

theorem size_eq {x : ℚ} {exponent : ℤ} (le : (10 : ℚ) ^ exponent ≤ |x|)
    (lt : |x| < (10 : ℚ) ^ (exponent + 1)) : size x = exponent := by
  have ne : x ≠ 0 := by
    rintro rfl
    have : (0 : ℚ) < 10 ^ exponent := by positivity
    simp only [abs_zero] at le
    linarith
  have below := (size_lt_iff ne).mpr lt
  have reached : ¬ size x < exponent := by
    rw [size_lt_iff ne]
    exact not_lt.mpr le
  omega

theorem size_le_size {x y : ℚ} (pos : 0 < x) (le : x ≤ y) : size x ≤ size y := by
  rw [size, size, abs_of_pos pos, abs_of_pos (pos.trans_le le)]
  exact Int.log_mono_right pos le

/-- A number from a power of ten on is of that size at least. -/
theorem le_size {x : ℚ} {exponent : ℤ} (le : (10 : ℚ) ^ exponent ≤ x) : exponent ≤ size x := by
  have pos : 0 < x := lt_of_lt_of_le (by positivity) le
  by_contra small
  have below := (size_lt_iff pos.ne').mp (not_le.mp small)
  rw [abs_of_pos pos] at below
  exact below.not_ge le

/-! ## Significant digits -/

/-- The places that a number has up to its last significant digit. -/
def placesFor (count : ℕ) (x : ℚ) : ℤ :=
  count - 1 - size x

/-- **Significant digits.**  A number rounded to significant digits. -/
def toDigits (mode : RoundingMode) (count : ℕ) (x : ℚ) : ℚ :=
  mode.atPlaces (placesFor count x) x

@[simp] theorem toDigits_zero (mode : RoundingMode) (count : ℕ) :
    mode.toDigits count 0 = 0 :=
  mode.atPlaces_zero _

theorem toDigits_neg (mode : RoundingMode) (count : ℕ) (x : ℚ) :
    mode.toDigits count (-x) = -mode.mirror.toDigits count x := by
  rw [toDigits, toDigits, atPlaces_neg, placesFor, placesFor, size_neg]

theorem toDigits_nonneg (mode : RoundingMode) (count : ℕ) {x : ℚ} (nonneg : 0 ≤ x) :
    0 ≤ mode.toDigits count x :=
  mode.atPlaces_nonneg _ nonneg

/-- Rounding to digits does not carry a number across the power of ten above
it. -/
theorem toDigits_le_zpow (mode : RoundingMode) {count : ℕ} {x : ℚ} :
    mode.toDigits count x ≤ 10 ^ (size x + 1) := by
  have fine : 0 ≤ size x + 1 + placesFor count x := by
    rw [placesFor]
    omega
  rw [← mode.atPlaces_zpow fine]
  exact mode.atPlaces_mono _ ((le_abs_self x).trans (lt_zpow_size x).le)

/-- Rounding to digits does not carry a number across the power of ten below
it. -/
theorem zpow_le_toDigits (mode : RoundingMode) {count : ℕ} (some : 1 ≤ count) {x : ℚ}
    (pos : 0 < x) : 10 ^ size x ≤ mode.toDigits count x := by
  have fine : 0 ≤ size x + placesFor count x := by
    rw [placesFor]
    omega
  rw [← mode.atPlaces_zpow fine]
  exact mode.atPlaces_mono _ ((zpow_size_le pos.ne').trans_eq (abs_of_pos pos))

theorem toDigits_monotoneOn (mode : RoundingMode) {count : ℕ} (some : 1 ≤ count) :
    MonotoneOn (mode.toDigits count) (Set.Ici 0) := by
  intro x (nonneg : 0 ≤ x) y nonneg' le
  rcases nonneg.eq_or_lt with rfl | pos
  · rw [toDigits_zero]
    exact mode.toDigits_nonneg count nonneg'
  · rcases (size_le_size pos le).eq_or_lt with eq | lt
    · rw [toDigits, toDigits, placesFor, placesFor, eq]
      exact mode.atPlaces_mono _ le
    · -- Between numbers of two sizes there is a power of ten.
      calc mode.toDigits count x ≤ 10 ^ (size x + 1) := mode.toDigits_le_zpow
        _ ≤ 10 ^ size y := zpow_le_zpow_right₀ (by norm_num) lt
        _ ≤ mode.toDigits count y := mode.zpow_le_toDigits some (pos.trans_le le)

/-- **Rounding to digits keeps the order of numbers.** -/
theorem toDigits_mono (mode : RoundingMode) {count : ℕ} (some : 1 ≤ count) :
    Monotone (mode.toDigits count) :=
  monotone_of_mirror (mode.toDigits_monotoneOn some)
    (mode.mirror.toDigits_monotoneOn some) (mode.toDigits_neg count)

theorem toDigits_pos (mode : RoundingMode) {count : ℕ} (some : 1 ≤ count) {x : ℚ} (pos : 0 < x) :
    0 < mode.toDigits count x :=
  lt_of_lt_of_le (by positivity) (mode.zpow_le_toDigits some pos)

/-- **Rounding to digits does not change the sign**, and only zero is rounded to zero. -/
theorem toDigits_sign (mode : RoundingMode) {count : ℕ} (some : 1 ≤ count) (x : ℚ) :
    (mode.toDigits count x < 0 ↔ x < 0) ∧ (mode.toDigits count x = 0 ↔ x = 0) := by
  rcases lt_trichotomy x 0 with neg | rfl | pos
  · have turned := mode.mirror.toDigits_pos some (neg_pos.mpr neg)
    rw [toDigits_neg, mirror_mirror, neg_pos] at turned
    exact ⟨iff_of_true turned neg, iff_of_false turned.ne neg.ne⟩
  · simp
  · have kept := mode.toDigits_pos some pos
    exact ⟨iff_of_false kept.not_gt pos.not_gt, iff_of_false kept.ne' pos.ne'⟩

/-- **Few digits.**  A number of no more digits than are kept is not changed. -/
theorem toDigits_of_digits (mode : RoundingMode) {count : ℕ} {n exponent : ℤ}
    (few : |n| < 10 ^ count) :
    mode.toDigits count (n * 10 ^ exponent) = n * 10 ^ exponent := by
  rcases eq_or_ne n 0 with rfl | ne
  · simp
  · have power : (0 : ℚ) < 10 ^ exponent := by positivity
    have ne' : (n * 10 ^ exponent : ℚ) ≠ 0 := mul_ne_zero (by exact_mod_cast ne) power.ne'
    have few' : |(n : ℚ)| < 10 ^ (count : ℤ) := by exact_mod_cast few
    have small : size (n * 10 ^ exponent) < count + exponent := by
      rw [size_lt_iff ne', abs_mul, abs_of_pos power, zpow_add₀ (by norm_num)]
      exact mul_lt_mul_of_pos_right few' power
    have fine : 0 ≤ exponent + placesFor count (n * 10 ^ exponent) := by
      rw [placesFor]
      omega
    obtain ⟨k, eq⟩ := Int.eq_ofNat_of_zero_le fine
    refine mode.atPlaces_of_whole (n := n * 10 ^ k) ?_
    rw [mul_assoc, ← zpow_add₀ (by norm_num), eq]
    simp

end Tariff.RoundingMode
