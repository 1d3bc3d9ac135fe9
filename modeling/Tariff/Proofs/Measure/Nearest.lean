import Tariff.Proofs.Measure.Precision
import Tariff.Proofs.Rounding.Nearest

/-!
# How far a result is from what is kept of it

What is kept of an exact result is rounded twice: it is stored first and rounded to
digits then.  The first rounding is too fine to be seen, but in the middle between two
numbers it may turn the second one round.  Away from the middle it does not.

## Main statements

* `Precision.keep_le_of_near`, `Precision.le_keep_of_near` — what is nearer to a number
  than half a step is not kept as the next one
* `Precision.keep_eq_of_near` — it is kept as that number
* `Precision.abs_keep_sub_le` — hardly more than half a step is lost
* `Precision.abs_keep_sub_le_half` — no more than half a step is lost of a number that
  is stored as it is

## Design notes

A point a thousandth of a step before the middle has three digits more than are kept,
and with at most sixteen of these it is stored as it is.  It is rounded to the nearer
side, and so are all numbers before it, since what is kept stands in the order of the
results.  Nothing need be known about how the other numbers are stored.
-/

namespace Tariff.Precision

variable {p : Precision} {x y : ℚ} {n e : ℤ}

/-- What is kept of a positive number lies on the grid of its last digit. -/
theorem onGrid_keep (p : Precision) (pos : 0 < x)
    (within : -(maxPlaces : ℤ) ≤ RoundingMode.size x) :
    OnGrid (RoundingMode.size x + 1 - p.digits) (p.keep x) := by
  have reached : (10 : ℚ) ^ RoundingMode.size x ≤ x :=
    (RoundingMode.zpow_size_le pos.ne').trans_eq (abs_of_pos pos)
  have power : RoundingMode.halfEven.stored (10 ^ RoundingMode.size x) maxPlaces =
      10 ^ RoundingMode.size x :=
    RoundingMode.halfEven.stored_of_digits (n := 1) (by simp) within (by decide)
  have order : (10 : ℚ) ^ RoundingMode.size x ≤ RoundingMode.halfEven.stored x maxPlaces := by
    rw [← power]
    exact RoundingMode.stored_mono rfl maxPlaces reached
  exact (p.mode.onGrid_toDigits p.digits _).mono (by have := RoundingMode.le_size order; omega)

/-- One lies on the grid of its last digit. -/
theorem onGrid_one (p : Precision) : OnGrid (1 - p.digits : ℤ) 1 := by
  have grid : OnGrid (1 - p.digits : ℤ) ((10 : ℚ) ^ (0 : ℤ)) :=
    .zpow (by have := p.digits_pos; omega)
  rwa [zpow_zero] at grid

/-- A power of ten is kept as it is. -/
theorem keep_zpow (p : Precision) (within : -(maxPlaces : ℤ) ≤ e) : p.keep (10 ^ e) = 10 ^ e := by
  refine p.keep_of_grid (.zpow le_rfl) within ?_
  rw [abs_of_pos (by positivity)]
  exact zpow_lt_zpow_right₀ (by norm_num) (by have := p.digits_pos; omega)

/-- A multiple of a step up to the next power of ten is kept as it is. -/
theorem keep_of_steps (p : Precision) (grid : OnGrid e x) (within : -(maxPlaces : ℤ) ≤ e)
    (nonneg : 0 ≤ x) (le : x ≤ 10 ^ (e + p.digits)) : p.keep x = x := by
  rcases le.lt_or_eq with lt | rfl
  · exact p.keep_of_grid grid within (by rwa [abs_of_nonneg nonneg])
  · exact p.keep_zpow (by omega)

section Near

variable (nearest : p.mode.isNearest = true) (few : p.digits ≤ 16)
include nearest few

section Steps

variable (within : -25 ≤ e)
include within

/-- A thousandth of a step before the middle, on either side, numbers are kept as the nearer one. -/
theorem keep_of_thousandths {m : ℤ} (low : (10 : ℚ) ^ (e + p.digits - 1) ≤ m * 10 ^ (e - 3))
    (high : (m * 10 ^ (e - 3) : ℚ) < 10 ^ (e + p.digits)) (near : |m - 1000 * n| ≤ 499) :
    p.keep (m * 10 ^ (e - 3)) = n * 10 ^ e := by
  have step : (0 : ℚ) < 10 ^ e := by positivity
  have fine : (10 : ℚ) ^ (e - 3) = 10 ^ e / 1000 := by
    rw [zpow_sub₀ (by norm_num)]
    norm_num
  have stored : RoundingMode.halfEven.stored (m * 10 ^ (e - 3)) maxPlaces = m * 10 ^ (e - 3) := by
    refine RoundingMode.halfEven.stored_of_grid ⟨m, rfl⟩ (by norm_num [maxPlaces]; omega) ?_
    rw [abs_of_nonneg (le_trans (by positivity) low)]
    refine high.trans_le ?_
    have split : (10 : ℚ) ^ (e + p.digits) = 10 ^ ((p.digits : ℤ) + 3) * 10 ^ (e - 3) := by
      rw [← zpow_add₀ (by norm_num)]
      congr 1
      omega
    have room : (10 : ℚ) ^ ((p.digits : ℤ) + 3) ≤ mantissaLimit := by
      have power : (10 : ℚ) ^ ((p.digits : ℤ) + 3) ≤ 10 ^ (19 : ℤ) :=
        zpow_le_zpow_right₀ (by norm_num) (by omega)
      exact power.trans (by norm_num [mantissaLimit])
    rw [split]
    exact mul_le_mul_of_nonneg_right room (by positivity)
  rw [keep, stored]
  refine RoundingMode.toDigits_of_near nearest low high ?_
  have distance : (m : ℚ) * 10 ^ (e - 3) - n * 10 ^ e = ((m - 1000 * n : ℤ) : ℚ) * 10 ^ e / 1000 := by
    rw [fine]
    push_cast
    ring
  have bound : |((m - 1000 * n : ℤ) : ℚ)| ≤ 499 := by exact_mod_cast near
  rw [distance, abs_div, abs_mul, abs_of_pos step, abs_of_pos (by norm_num : (0 : ℚ) < 1000),
    div_lt_div_iff₀ (by norm_num) (by norm_num)]
  nlinarith

/-- **What lies less than half a step above a number** is not kept as a greater one. -/
theorem keep_le_of_near (low : (10 : ℚ) ^ (e + p.digits - 1) ≤ n * 10 ^ e)
    (high : (n * 10 ^ e : ℚ) < 10 ^ (e + p.digits)) (h : x ≤ (n + 499 / 1000) * 10 ^ e) :
    p.keep x ≤ n * 10 ^ e := by
  have step : (0 : ℚ) < 10 ^ e := by positivity
  have point : (n + 499 / 1000) * (10 : ℚ) ^ e = (1000 * n + 499 : ℤ) * 10 ^ (e - 3) := by
    rw [zpow_sub₀ (by norm_num)]
    push_cast
    norm_num
    ring
  have next : ((n + 1 : ℤ) : ℚ) * 10 ^ e ≤ 10 ^ (e + p.digits) := by
    rw [add_comm e, zpow_add₀ (by norm_num), zpow_natCast] at high ⊢
    have below : n < 10 ^ p.digits := by exact_mod_cast lt_of_mul_lt_mul_right high step.le
    have next : ((n + 1 : ℤ) : ℚ) ≤ 10 ^ p.digits := by exact_mod_cast Int.add_one_le_of_lt below
    exact mul_le_mul_of_nonneg_right next step.le
  rw [point] at h
  refine (p.keep_mono h).trans_eq (keep_of_thousandths nearest few within ?_ ?_ ?_)
  · rw [← point]
    linarith
  · rw [← point]
    push_cast at next
    linarith
  · norm_num

/-- **What lies less than half a step below a number** is not kept as a lesser one, unless the
steps are finer there. -/
theorem le_keep_of_near (low : (10 : ℚ) ^ (e + p.digits - 1) < n * 10 ^ e)
    (high : (n * 10 ^ e : ℚ) ≤ 10 ^ (e + p.digits)) (h : (n - 499 / 1000) * 10 ^ e ≤ x) :
    n * 10 ^ e ≤ p.keep x := by
  have step : (0 : ℚ) < 10 ^ e := by positivity
  have point : (n - 499 / 1000) * (10 : ℚ) ^ e = (1000 * n - 499 : ℤ) * 10 ^ (e - 3) := by
    rw [zpow_sub₀ (by norm_num)]
    push_cast
    norm_num
    ring
  have last : (10 : ℚ) ^ (e + p.digits - 1) ≤ ((n - 1 : ℤ) : ℚ) * 10 ^ e := by
    obtain ⟨j, digits⟩ := Nat.exists_eq_add_of_le' p.digits_pos
    have exponent : e + p.digits - 1 = (j : ℤ) + e := by omega
    rw [exponent, zpow_add₀ (by norm_num), zpow_natCast] at low ⊢
    have above : 10 ^ j < n := by exact_mod_cast lt_of_mul_lt_mul_right low step.le
    have last : (10 : ℚ) ^ j ≤ ((n - 1 : ℤ) : ℚ) := by exact_mod_cast Int.le_sub_one_of_lt above
    exact mul_le_mul_of_nonneg_right last step.le
  rw [point] at h
  refine (keep_of_thousandths nearest few within ?_ ?_ ?_).symm.trans_le (p.keep_mono h)
  · rw [← point]
    push_cast at last
    linarith
  · rw [← point]
    linarith
  · norm_num

end Steps

/-- **What lies less than half a step beside a number** of few digits is kept as that number, if a
power of ten is below both. -/
theorem keep_eq_of_near {k : ℤ} (within : -25 ≤ k + 1 - p.digits) (grid : OnGrid (k + 1 - p.digits) y)
    (low : (10 : ℚ) ^ k ≤ y) (high : y < 10 ^ (k + 1)) (reached : (10 : ℚ) ^ k ≤ x)
    (near : |x - y| ≤ 499 / 1000 * 10 ^ (k + 1 - p.digits)) : p.keep x = y := by
  have base : k + 1 - (p.digits : ℤ) + p.digits - 1 = k := by ring
  have top : k + 1 - (p.digits : ℤ) + p.digits = k + 1 := by ring
  have self : p.keep y = y := by
    refine p.keep_of_steps grid ?_ (le_trans (by positivity) low) (by rw [top]; exact high.le)
    norm_num [maxPlaces]
    omega
  obtain ⟨n, rfl⟩ := grid
  obtain ⟨lower, upper⟩ := abs_le.mp near
  refine le_antisymm (keep_le_of_near nearest few within ?_ ?_ (by linarith)) ?_
  · rwa [base]
  · rwa [top]
  rcases low.lt_or_eq with above | least
  · refine le_keep_of_near nearest few within ?_ ?_ (by linarith)
    · rwa [base]
    · rw [top]
      exact high.le
  · rw [← self, ← least]
    exact p.keep_mono reached

end Near

/-- **Hardly more than half a step** is lost of a positive number. -/
theorem abs_keep_sub_le (nearest : p.mode.isNearest = true) (few : p.digits ≤ 16) (pos : 0 < x)
    (within : -25 ≤ RoundingMode.size x + 1 - p.digits) :
    |p.keep x - x| ≤ 501 / 1000 * 10 ^ (RoundingMode.size x + 1 - p.digits) := by
  obtain ⟨n, reached, lower, upper, next⟩ := exists_steps p.digits_pos pos
  have base : RoundingMode.size x + 1 - p.digits + p.digits - 1 = RoundingMode.size x := by omega
  have top : RoundingMode.size x + 1 - p.digits + p.digits = RoundingMode.size x + 1 := by omega
  set e := RoundingMode.size x + 1 - (p.digits : ℤ)
  rw [← base] at reached
  rw [← top] at next
  have step : (0 : ℚ) < 10 ^ e := by positivity
  have places : -(maxPlaces : ℤ) ≤ e := by norm_num [maxPlaces]; omega
  have nonneg : (0 : ℚ) ≤ n * 10 ^ e := le_trans (by positivity) reached
  have below : (n * 10 ^ e : ℚ) ≤ p.keep x := by
    rw [← p.keep_of_steps (x := n * 10 ^ e) ⟨n, rfl⟩ places nonneg (by linarith)]
    exact p.keep_mono lower
  have above : p.keep x ≤ (n + 1) * 10 ^ e := by
    rw [← p.keep_of_steps (x := (n + 1) * 10 ^ e) ⟨n + 1, by push_cast; rfl⟩ places (by linarith) next]
    exact p.keep_mono upper.le
  rw [abs_le]
  rcases le_total x ((n + 499 / 1000) * 10 ^ e) with lowerHalf | upperHalf
  · have kept := keep_le_of_near nearest few within reached (by linarith) lowerHalf
    constructor <;> linarith
  · rcases le_total (((n : ℚ) + 1 - 499 / 1000) * 10 ^ e) x with upperPart | middle
    · have kept := le_keep_of_near (n := n + 1) nearest few within (by push_cast; linarith)
        (by push_cast; exact next) (by push_cast; exact upperPart)
      push_cast at kept
      constructor <;> linarith
    · constructor <;> linarith

/-- **No more than half a step** is lost of a number that is stored as it is. -/
theorem abs_keep_sub_le_half (nearest : p.mode.isNearest = true) (grid : OnGrid e x)
    (within : -(maxPlaces : ℤ) ≤ e) (room : |x| < mantissaLimit * 10 ^ e) :
    |p.keep x - x| ≤ 10 ^ (RoundingMode.size x + 1 - p.digits) / 2 := by
  rw [keep, RoundingMode.halfEven.stored_of_grid grid within room]
  exact RoundingMode.abs_toDigits_sub_le nearest p.digits x

end Tariff.Precision
