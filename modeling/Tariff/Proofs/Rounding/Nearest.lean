import Tariff.Proofs.Rounding.Digits

/-!
# How far rounding moves a number

The last digit that is kept of a number counts a power of ten, its step.  Around
every number there are two multiples of its step, and rounding to the nearest one
moves the number by half a step at most.

## Main statements

* `exists_steps` — a positive number lies between two multiples of its step
* `RoundingMode.toDigits_of_near` — what is near to a number of few digits is
  rounded to that number
* `RoundingMode.abs_toDigits_sub_le` — rounding to digits is off by half a step
-/

namespace Tariff

variable {x : ℚ} {n e : ℤ} {count : ℕ}

/-- **Steps.**  A positive number lies between two multiples of the step of its last
digit, and the lower one of them has all its digits. -/
theorem exists_steps (some : 1 ≤ count) (pos : 0 < x) :
    ∃ n : ℤ, (10 : ℚ) ^ RoundingMode.size x ≤ n * 10 ^ (RoundingMode.size x + 1 - count) ∧
      n * 10 ^ (RoundingMode.size x + 1 - count) ≤ x ∧
      x < (n + 1) * 10 ^ (RoundingMode.size x + 1 - count) ∧
      (n + 1) * (10 : ℚ) ^ (RoundingMode.size x + 1 - count) ≤ 10 ^ (RoundingMode.size x + 1) := by
  set k := RoundingMode.size x
  have step : (0 : ℚ) < 10 ^ (k + 1 - count) := by positivity
  have below : x < 10 ^ (k + 1) := (le_abs_self x).trans_lt (RoundingMode.lt_zpow_size x)
  have reached : (10 : ℚ) ^ k ≤ x :=
    (RoundingMode.zpow_size_le pos.ne').trans_eq (abs_of_pos pos)
  -- the powers of ten around the number are multiples of its step themselves
  have power : ∀ j : ℕ, (10 : ℚ) ^ (k + 1 - count + j) = ((10 ^ j : ℤ) : ℚ) * 10 ^ (k + 1 - count) := by
    intro j
    rw [add_comm, zpow_add₀ (by norm_num), zpow_natCast]
    push_cast
    rfl
  have lower := power (count - 1)
  have upper := power count
  rw [show k + 1 - count + ((count - 1 : ℕ) : ℤ) = k by omega] at lower
  rw [show k + 1 - count + (count : ℤ) = k + 1 by omega] at upper
  refine ⟨⌊x / 10 ^ (k + 1 - count)⌋, ?_, ?_, ?_, ?_⟩
  · rw [lower]
    refine mul_le_mul_of_nonneg_right ?_ step.le
    exact_mod_cast Int.le_floor.mpr ((le_div_iff₀ step).mpr (lower.symm.trans_le reached))
  · exact (le_div_iff₀ step).mp (Int.floor_le _)
  · exact (div_lt_iff₀ step).mp (Int.lt_floor_add_one _)
  · rw [upper]
    refine mul_le_mul_of_nonneg_right ?_ step.le
    exact_mod_cast Int.add_one_le_iff.mpr
      (Int.floor_lt.mpr ((div_lt_iff₀ step).mpr (below.trans_eq upper)))

namespace RoundingMode

variable {mode : RoundingMode}

/-- What is near to a whole number is rounded to that number. -/
theorem whole_of_near (nearest : mode.isNearest = true) (near : |x - n| < 1 / 2) :
    mode.whole x = n := by
  have half := abs_whole_sub_le_half nearest x
  have close : |((mode.whole x - n : ℤ) : ℚ)| < 1 := by
    push_cast
    calc |(mode.whole x : ℚ) - n| ≤ |(mode.whole x : ℚ) - x| + |x - n| := abs_sub_le _ _ _
      _ < 1 := by linarith
  have zero : mode.whole x - n = 0 := Int.abs_lt_one_iff.mp (by exact_mod_cast close)
  omega

/-- **What is near to a number of few digits** is rounded to that number. -/
theorem toDigits_of_near (nearest : mode.isNearest = true) (low : (10 : ℚ) ^ (e + count - 1) ≤ x)
    (high : x < 10 ^ (e + count)) (near : |x - n * 10 ^ e| < 10 ^ e / 2) :
    mode.toDigits count x = n * 10 ^ e := by
  have step : (0 : ℚ) < 10 ^ e := by positivity
  have pos : 0 < x := lt_of_lt_of_le (by positivity) low
  have size : size x = e + count - 1 :=
    size_eq (by rwa [abs_of_pos pos]) (by rwa [abs_of_pos pos, sub_add_cancel])
  have places : placesFor count x = -e := by
    rw [placesFor, size]
    omega
  have multiple : |x / 10 ^ e - n| < 1 / 2 := by
    have scaled : x / 10 ^ e - n = (x - n * 10 ^ e) / 10 ^ e := by field_simp
    rw [scaled, abs_div, abs_of_pos step, div_lt_iff₀ step]
    linarith
  rw [toDigits, places, atPlaces, zpow_neg, ← div_eq_mul_inv, whole_of_near nearest multiple,
    div_inv_eq_mul]

/-- Rounding to the nearest number of some places is off by half of the last one at most. -/
theorem abs_atPlaces_sub_le (nearest : mode.isNearest = true) (places : ℤ) (x : ℚ) :
    |mode.atPlaces places x - x| ≤ 10 ^ (-places) / 2 := by
  have scale : (0 : ℚ) < 10 ^ places := by positivity
  have half := abs_whole_sub_le_half nearest (x * 10 ^ places)
  have scaled : mode.atPlaces places x - x =
      (mode.whole (x * 10 ^ places) - x * 10 ^ places) / 10 ^ places := by
    rw [atPlaces]
    field_simp
  rw [scaled, abs_div, abs_of_pos scale, zpow_neg, div_le_iff₀ scale]
  field_simp
  linarith

/-- **Rounding to the nearest number** of some digits is off by half a step at most. -/
theorem abs_toDigits_sub_le (nearest : mode.isNearest = true) (count : ℕ) (x : ℚ) :
    |mode.toDigits count x - x| ≤ 10 ^ (size x + 1 - count) / 2 := by
  have places : size x + 1 - count = -placesFor count x := by
    rw [placesFor]
    omega
  rw [toDigits, places]
  exact abs_atPlaces_sub_le nearest _ x

end RoundingMode

end Tariff
