import Tariff.Proofs.Rounding.Storage

/-!
# Numbers of few digits

A number of few digits is a multiple of a power of ten that is not much smaller
than the number itself.  Both halves of that are kept by rounding: what is
rounded lies on a grid, and does not leave it.

## Main definitions

* `OnGrid` — a multiple of a power of ten
* `HasDigits` — a number of at most some significant digits

## Main statements

* `RoundingMode.onGrid_toDigits`, `OnGrid.toDigits` — the grids of a rounded
  number
* `RoundingMode.hasDigits_toDigits` — rounding to digits leaves no more of them
* `RoundingMode.stored_of_grid` — when a multiple of a power of ten is stored as
  it is
-/

namespace Tariff

/-- **A grid.**  A number that is a multiple of a power of ten. -/
def OnGrid (exponent : ℤ) (x : ℚ) : Prop :=
  ∃ n : ℤ, x = n * 10 ^ exponent

/-- **A number of few digits** has at most some significant digits. -/
def HasDigits (count : ℕ) (x : ℚ) : Prop :=
  ∃ n e : ℤ, x = n * 10 ^ e ∧ |n| < 10 ^ count

variable {x y : ℚ} {e : ℤ} {count : ℕ}

/-! ## Grids -/

theorem onGrid_of_whole {places : ℤ} {n : ℤ} (eq : x * 10 ^ places = n) : OnGrid (-places) x := by
  have pos : (0 : ℚ) < 10 ^ places := by positivity
  exact ⟨n, by rw [zpow_neg, ← div_eq_mul_inv, eq_div_iff pos.ne', eq]⟩

namespace OnGrid

/-- A coarse grid is part of every finer one. -/
theorem mono {fine coarse : ℤ} (h : OnGrid coarse x) (le : fine ≤ coarse) : OnGrid fine x := by
  obtain ⟨n, rfl⟩ := h
  obtain ⟨k, eq⟩ := Int.eq_ofNat_of_zero_le (sub_nonneg.mpr le)
  refine ⟨n * 10 ^ k, ?_⟩
  rw [Int.cast_mul, Int.cast_pow, Int.cast_ofNat, mul_assoc, ← zpow_natCast, ← eq,
    ← zpow_add₀ (by norm_num), sub_add_cancel]

theorem neg (h : OnGrid e x) : OnGrid e (-x) := by
  obtain ⟨n, rfl⟩ := h
  exact ⟨-n, by rw [Int.cast_neg, neg_mul]⟩

theorem sub (hx : OnGrid e x) (hy : OnGrid e y) : OnGrid e (x - y) := by
  obtain ⟨m, rfl⟩ := hx
  obtain ⟨n, rfl⟩ := hy
  exact ⟨m - n, by rw [Int.cast_sub, sub_mul]⟩

theorem add (hx : OnGrid e x) (hy : OnGrid e y) : OnGrid e (x + y) := by
  rw [← sub_neg_eq_add]
  exact hx.sub hy.neg

/-- A power of ten lies on the grids that are no coarser. -/
theorem zpow {k : ℤ} (le : e ≤ k) : OnGrid e (10 ^ k) :=
  OnGrid.mono ⟨1, by simp⟩ le

/-- Moving the point moves the grid. -/
theorem zpow_mul (h : OnGrid e x) (k : ℤ) : OnGrid (k + e) (10 ^ k * x) := by
  obtain ⟨n, rfl⟩ := h
  refine ⟨n, ?_⟩
  rw [zpow_add₀ (by norm_num)]
  ring

/-- **Two numbers on a grid** are a step apart. -/
theorem step_le_sub (hx : OnGrid e x) (hy : OnGrid e y) (lt : x < y) : 10 ^ e ≤ y - x := by
  have step : (0 : ℚ) < 10 ^ e := by positivity
  obtain ⟨n, eq⟩ := hy.sub hx
  have pos := sub_pos.mpr lt
  rw [eq] at pos ⊢
  have counted : (1 : ℤ) ≤ n := by exact_mod_cast (mul_pos_iff_of_pos_right step).mp pos
  exact le_mul_of_one_le_left step.le (by exact_mod_cast counted)

/-- Half of a number lies on the grid ten times as fine. -/
theorem half (h : OnGrid e x) : OnGrid (e - 1) (x / 2) := by
  obtain ⟨n, rfl⟩ := h
  refine ⟨5 * n, ?_⟩
  rw [zpow_sub_one₀ (by norm_num)]
  push_cast
  ring

/-- On a grid, the size of a number tells how many steps it is away from zero. -/
theorem exists_lt {bound : ℤ} (h : OnGrid e x) (size : |x| < bound * 10 ^ e) :
    ∃ n : ℤ, x = n * 10 ^ e ∧ |n| < bound := by
  have pos : (0 : ℚ) < 10 ^ e := by positivity
  obtain ⟨n, rfl⟩ := h
  refine ⟨n, rfl, ?_⟩
  rw [abs_mul, abs_of_pos pos] at size
  exact_mod_cast lt_of_mul_lt_mul_right size pos.le

/-- A number on a grid has few digits if it is not far away from zero. -/
theorem hasDigits (h : OnGrid e x) (size : |x| < 10 ^ (e + count)) : HasDigits count x := by
  have bound : |x| < ((10 ^ count : ℤ) : ℚ) * 10 ^ e := by
    rwa [add_comm, zpow_add₀ (by norm_num), zpow_natCast, ← Int.cast_ofNat, ← Int.cast_pow,
      Int.cast_ofNat] at size
  obtain ⟨n, eq, few⟩ := h.exists_lt bound
  exact ⟨n, e, eq, few⟩

end OnGrid

/-! ## Few digits -/

theorem HasDigits.neg (h : HasDigits count x) : HasDigits count (-x) := by
  obtain ⟨n, e, rfl, few⟩ := h
  exact ⟨-n, e, by rw [Int.cast_neg, neg_mul], by rwa [abs_neg]⟩

/-- A number of few digits lies on the grid of its last digit. -/
theorem HasDigits.onGrid (h : HasDigits count x) (ne : x ≠ 0) :
    OnGrid (RoundingMode.size x + 1 - count) x := by
  obtain ⟨n, e, rfl, few⟩ := h
  have pos : (0 : ℚ) < 10 ^ e := by positivity
  have few' : |(n : ℚ)| < 10 ^ (count : ℤ) := by exact_mod_cast few
  have below : |(n * 10 ^ e : ℚ)| < 10 ^ (count + e) := by
    rw [abs_mul, abs_of_pos pos, zpow_add₀ (by norm_num)]
    exact mul_lt_mul_of_pos_right few' pos
  have size := (RoundingMode.size_lt_iff ne).mpr below
  exact OnGrid.mono ⟨n, rfl⟩ (by omega)

/-- From a power of ten on, it lies on the grid of the last digit there. -/
theorem HasDigits.onGrid_of_le {k : ℤ} (h : HasDigits count x) (low : (10 : ℚ) ^ k ≤ x) :
    OnGrid (k + 1 - count) x := by
  have size := RoundingMode.le_size low
  exact (h.onGrid (lt_of_lt_of_le (by positivity) low).ne').mono (by omega)

/-- On a grid that a number of few digits lies on, it has no more digits. -/
theorem HasDigits.exists_onGrid (h : HasDigits count x) (grid : OnGrid e x) :
    ∃ n f : ℤ, e ≤ f ∧ x = n * 10 ^ f ∧ |n| < 10 ^ count := by
  obtain ⟨n, f, eq, few⟩ := h
  rcases le_total e f with within | behind
  · exact ⟨n, f, within, eq, few⟩
  · have power : (10 : ℚ) ^ f ≤ 10 ^ e := zpow_le_zpow_right₀ (by norm_num) behind
    have few' : |(n : ℚ)| < ((10 ^ count : ℤ) : ℚ) := by exact_mod_cast few
    have size : |x| < ((10 ^ count : ℤ) : ℚ) * 10 ^ e := by
      rw [eq, abs_mul, abs_of_pos (by positivity : (0 : ℚ) < 10 ^ f)]
      exact mul_lt_mul few' power (by positivity) (by positivity)
    obtain ⟨m, eq', few'⟩ := grid.exists_lt size
    exact ⟨m, e, le_rfl, eq', few'⟩

namespace RoundingMode

variable (mode : RoundingMode)

theorem toDigits_of_hasDigits (h : HasDigits count x) : mode.toDigits count x = x := by
  obtain ⟨n, e, rfl, few⟩ := h
  exact mode.toDigits_of_digits few

/-! ## The grids of rounded numbers -/

theorem onGrid_atPlaces (places : ℤ) (x : ℚ) : OnGrid (-places) (mode.atPlaces places x) :=
  ⟨mode.whole (x * 10 ^ places), by rw [atPlaces, zpow_neg, div_eq_mul_inv]⟩

/-- A stored number has no more places than it was given. -/
theorem onGrid_stored (x : ℚ) (scale : ℕ) : OnGrid (-(scale : ℤ)) (mode.stored x scale) := by
  induction scale with
  | zero => exact mode.onGrid_atPlaces 0 x
  | succ scale ih =>
      rw [stored]
      split
      · exact mode.onGrid_atPlaces _ x
      · exact ih.mono (by omega)

/-- A rounded number lies on the grid that its size asks for. -/
theorem onGrid_toDigits (count : ℕ) (x : ℚ) :
    OnGrid (size x + 1 - count) (mode.toDigits count x) := by
  have last : size x + 1 - count = -placesFor count x := by
    rw [placesFor]
    omega
  rw [last]
  exact mode.onGrid_atPlaces _ x

/-- Rounding to digits does not carry a number across the power of ten above
its size, on either side of zero. -/
theorem abs_toDigits_le (count : ℕ) (x : ℚ) : |mode.toDigits count x| ≤ 10 ^ (size x + 1) := by
  rcases le_total 0 x with nonneg | nonpos
  · rw [abs_of_nonneg (mode.toDigits_nonneg count nonneg)]
    exact mode.toDigits_le_zpow
  · have turned := mode.toDigits_neg count (-x)
    rw [neg_neg] at turned
    rw [turned, abs_neg, abs_of_nonneg (mode.mirror.toDigits_nonneg count (neg_nonneg.mpr nonpos)),
      ← size_neg x]
    exact mode.mirror.toDigits_le_zpow

/-- **Rounding to digits leaves no more digits than are kept.** -/
theorem hasDigits_toDigits (some : 1 ≤ count) (x : ℚ) :
    HasDigits count (mode.toDigits count x) := by
  have grid := mode.onGrid_toDigits count x
  have top : size x + 1 - count + count = size x + 1 := by omega
  rcases (mode.abs_toDigits_le count x).lt_or_eq with lt | eq
  · exact grid.hasDigits (by rwa [top])
  · -- a carry to the next power of ten leaves a single digit
    have one : (1 : ℤ) < 10 ^ count := one_lt_pow₀ (by norm_num) (by omega)
    have power : HasDigits count ((10 : ℚ) ^ (size x + 1)) := ⟨1, size x + 1, by simp, by simpa⟩
    rcases abs_choice (mode.toDigits count x) with same | turned
    · rwa [← same, eq]
    · rw [← neg_neg (mode.toDigits count x), ← turned, eq]
      exact power.neg

/-! ## Storing on a grid -/

/-- **A multiple of a power of ten is stored as it is** when its digits have room and the power
does not reach behind the last place. -/
theorem stored_of_grid {scale : ℕ} (grid : OnGrid e x) (within : -(scale : ℤ) ≤ e)
    (room : |x| < mantissaLimit * 10 ^ e) : mode.stored x scale = x := by
  have steps : |x| < ((mantissaLimit : ℤ) : ℚ) * 10 ^ e := by exact_mod_cast room
  obtain ⟨n, eq, few⟩ := grid.exists_lt steps
  exact mode.stored_of_digits eq within few

/-- **A multiple of a number of few digits is stored as it is** when so many times its digits have
room. -/
theorem stored_multiple {scale k : ℕ} (digits : HasDigits count x) (grid : OnGrid (-(scale : ℤ)) x)
    (room : k * 10 ^ count ≤ mantissaLimit) : mode.stored (k * x) scale = k * x := by
  rcases Nat.eq_zero_or_pos k with rfl | pos
  · simp
  · obtain ⟨n, e, within, rfl, few⟩ := digits.exists_onGrid grid
    refine mode.stored_of_digits (n := k * n) (by push_cast; ring) within ?_
    calc |(k : ℤ) * n| = k * |n| := by rw [abs_mul, Nat.abs_cast]
      _ < k * 10 ^ count := mul_lt_mul_of_pos_left few (by exact_mod_cast pos)
      _ ≤ mantissaLimit := by exact_mod_cast room

end RoundingMode

/-- Rounding to digits does not carry a number off a grid. -/
theorem OnGrid.toDigits (h : OnGrid e x) (mode : RoundingMode) (count : ℕ) :
    OnGrid e (mode.toDigits count x) := by
  rcases le_total e (RoundingMode.size x + 1 - count) with fine | coarse
  · exact (mode.onGrid_toDigits count x).mono fine
  · -- the grid is no finer than the last digit that is kept, so that nothing is rounded
    obtain ⟨n, eq⟩ := h.mono coarse
    have whole : x * 10 ^ RoundingMode.placesFor count x = n := by
      have cancel : RoundingMode.size x + 1 - count + RoundingMode.placesFor count x = 0 := by
        rw [RoundingMode.placesFor]
        omega
      nth_rewrite 1 [eq]
      rw [mul_assoc, ← zpow_add₀ (by norm_num), cancel, zpow_zero, mul_one]
    have kept : mode.toDigits count x = x := mode.atPlaces_of_whole whole
    rwa [kept]

end Tariff
