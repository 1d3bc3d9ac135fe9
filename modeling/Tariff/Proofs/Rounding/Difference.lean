import Tariff.Proofs.Rounding.Digits

/-!
# What is left of a number

A part that makes up at least half of a number is stored and rounded to digits.
What is left of the number is then a difference that needs no rounding at all.

## Main statements

* `RoundingMode.exists_grid_sub` — what is left of a positive number lies on a grid
  that can be stored, and has no more digits than are kept
* `RoundingMode.exists_grid_sub_quotient` — the same for both signs, of a quotient
  by a divisor between one and two

## Design notes

The number has its last digit on one grid, and half of it lies on the next finer
one.  As long as that grid can be stored, the half is neither lost in storing nor
in rounding, so that no part of at least a half is rounded below it.  What is
left is then at most the rounded part, and needs no digit that the part does not
have.  This holds for all modes alike: beyond the order of numbers and the points
that rounding leaves alone nothing is used.

A number so small that its half cannot be stored any more has all its digits
among the last places.  There is nothing to show about it: whatever is stored
differs from it by a few units of the last place.
-/

namespace Tariff.RoundingMode

variable {mode store : RoundingMode} {count : ℕ} {s x : ℚ}

/-- Half of a number needs one place more than the number. -/
theorem onGrid_half (digits : HasDigits count s) (ne : s ≠ 0) :
    OnGrid (size s - count) (s / 2) := by
  have finer := (digits.onGrid ne).half
  rwa [add_sub_right_comm, add_sub_cancel_right] at finer

/-- Half of a number of few digits is stored as it is, unless it reaches behind the
last place. -/
theorem stored_half (few : count ≤ 28) (pos : 0 < s) (digits : HasDigits count s)
    (within : -(maxPlaces : ℤ) ≤ size s - count) : store.stored (s / 2) maxPlaces = s / 2 := by
  have below : s < 10 ^ (size s + 1) := (le_abs_self s).trans_lt (lt_zpow_size s)
  have step : (0 : ℚ) < 10 ^ (size s - count) := by positivity
  refine store.stored_of_grid (onGrid_half digits pos.ne') within ?_
  have power : (10 : ℚ) ^ (size s + 1) ≤ 10 ^ (29 : ℤ) * 10 ^ (size s - count) := by
    rw [← zpow_add₀ (by norm_num)]
    exact zpow_le_zpow_right₀ (by norm_num) (by omega)
  have limit : (10 : ℚ) ^ (29 : ℤ) ≤ 2 * mantissaLimit := by norm_num [mantissaLimit]
  rw [abs_of_pos (by positivity)]
  nlinarith

/-- **What is left of a number** beside a rounded part of at least its half lies on
a grid that can be stored, and has no more digits than are kept. -/
theorem exists_grid_sub (nearest : store.isNearest = true) (some : 1 ≤ count) (few : count ≤ 28)
    (pos : 0 < s) (digits : HasDigits count s) (places : OnGrid (-(maxPlaces : ℤ)) s)
    (held : store.stored s maxPlaces = s) (half : s / 2 ≤ x) (le : x ≤ s) {part : ℚ}
    (rounded : part = mode.toDigits count (store.stored x maxPlaces)) :
    0 ≤ part ∧ part ≤ s ∧ ∃ e : ℤ, -(maxPlaces : ℤ) ≤ e ∧ OnGrid e (s - part) ∧
      s - part < 10 ^ (e + count) := by
  have grid := digits.onGrid pos.ne'
  have below : s < 10 ^ (size s + 1) := (le_abs_self s).trans_lt (lt_zpow_size s)
  have order := store.stored_mono nearest maxPlaces
  generalize hy : store.stored x maxPlaces = y at rounded
  have upper : y ≤ s := by
    rw [← hy, ← held]
    exact order le
  have nonneg : 0 ≤ y := by
    rw [← hy]
    exact stored_nonneg nearest maxPlaces ((half_pos pos).le.trans half)
  have partNonneg : 0 ≤ part := rounded ▸ mode.toDigits_nonneg count nonneg
  have partLe : part ≤ s := by
    rw [rounded, ← mode.toDigits_of_hasDigits digits]
    exact mode.toDigits_mono some upper
  refine ⟨partNonneg, partLe, ?_⟩
  rcases lt_or_ge (size s - count) (-(maxPlaces : ℤ)) with tiny | within
  · -- all digits of the number stand among the last places
    refine ⟨-(maxPlaces : ℤ), le_rfl, ?_, ?_⟩
    · have partGrid : OnGrid (-(maxPlaces : ℤ)) part := by
        rw [rounded, ← hy]
        exact (store.onGrid_stored x maxPlaces).toDigits mode count
      exact places.sub partGrid
    · have power : (10 : ℚ) ^ (size s + 1) ≤ 10 ^ (-(maxPlaces : ℤ) + count) :=
        zpow_le_zpow_right₀ (by norm_num) (by omega)
      exact ((sub_le_self s partNonneg).trans_lt below).trans_le power
  · have lower : s / 2 ≤ y := by
      have stays : store.stored (s / 2) maxPlaces = s / 2 := stored_half few pos digits within
      rw [← hy, ← stays]
      exact order half
    have yPos : 0 < y := (half_pos pos).trans_le lower
    rcases le_or_gt ((10 : ℚ) ^ size s) y with reached | less
    · -- the part is of the size of the number, and so are their last digits
      have same : size y = size s :=
        size_eq (by rwa [abs_of_pos yPos]) (by rw [abs_of_pos yPos]; exact upper.trans_lt below)
      refine ⟨size s + 1 - count, by omega, ?_, ?_⟩
      · have partGrid := mode.onGrid_toDigits count y
        rw [← rounded, same] at partGrid
        exact grid.sub partGrid
      · rw [sub_add_cancel]
        exact (sub_le_self s partNonneg).trans_lt below
    · -- the part has a place more than the number, but is no smaller than what is left
      have base : (10 : ℚ) ^ size s ≤ s := (zpow_size_le pos.ne').trans_eq (abs_of_pos pos)
      have next : size y = size s - 1 := by
        refine size_eq ?_ ?_
        · rw [abs_of_pos yPos, zpow_sub_one₀ (by norm_num)]
          linarith
        · rwa [abs_of_pos yPos, sub_add_cancel]
      have halfDigits : HasDigits count (s / 2) := by
        refine (onGrid_half digits pos.ne').hasDigits ?_
        rw [sub_add_cancel, abs_of_pos (half_pos pos)]
        exact lower.trans_lt less
      have halfLe : s / 2 ≤ part := by
        rw [rounded, ← mode.toDigits_of_hasDigits halfDigits]
        exact mode.toDigits_mono some lower
      refine ⟨size s - count, within, ?_, ?_⟩
      · have partGrid := mode.onGrid_toDigits count y
        rw [← rounded, next, sub_add_cancel] at partGrid
        exact (grid.mono (by omega)).sub partGrid
      · rw [sub_add_cancel]
        calc s - part ≤ s / 2 := by linarith
          _ ≤ y := lower
          _ < 10 ^ size s := less

/-- **What is left of a number** beside its rounded quotient by a divisor between one
and two. -/
theorem exists_grid_sub_quotient (nearest : store.isNearest = true) (some : 1 ≤ count)
    (few : count ≤ 28) (digits : HasDigits count s) (places : OnGrid (-(maxPlaces : ℤ)) s)
    (held : ∀ store : RoundingMode, store.stored s maxPlaces = s)
    {divisor : ℚ} (one : 1 ≤ divisor) (two : divisor ≤ 2) {part : ℚ}
    (rounded : part = mode.toDigits count (store.stored (s / divisor) maxPlaces)) :
    ∃ e : ℤ, -(maxPlaces : ℤ) ≤ e ∧ OnGrid e (s - part) ∧ |s - part| < 10 ^ (e + count) := by
  have positive : (0 : ℚ) < divisor := zero_lt_one.trans_le one
  rcases lt_trichotomy s 0 with neg | rfl | pos
  · -- the mirrored modes round the number without its sign
    have pos : 0 < -s := neg_pos.mpr neg
    have half : -s / 2 ≤ -s / divisor := div_le_div_of_nonneg_left pos.le positive two
    have turned :
        -part = mode.mirror.toDigits count (store.mirror.stored (-s / divisor) maxPlaces) := by
      rw [rounded, ← neg_neg (s / divisor), stored_neg, toDigits_neg, neg_neg, neg_div]
    have held' : store.mirror.stored (-s) maxPlaces = -s := by
      rw [stored_neg, mirror_mirror, held]
    obtain ⟨nonneg, le, e, within, grid, size⟩ :=
      exists_grid_sub (isNearest_mirror nearest) some few
      pos digits.neg places.neg held' half (div_le_self pos.le one) turned
    have same : s - part = -(-s - -part) := by ring
    rw [same, abs_neg, abs_of_nonneg (sub_nonneg.mpr le)]
    exact ⟨e, within, grid.neg, size⟩
  · have zero : part = 0 := by rw [rounded, zero_div, stored_zero, toDigits_zero]
    refine ⟨0, by decide, ⟨0, by simp [zero]⟩, ?_⟩
    rw [zero, sub_zero, abs_zero]
    positivity
  · have half : s / 2 ≤ s / divisor := div_le_div_of_nonneg_left pos.le positive two
    obtain ⟨nonneg, le, e, within, grid, size⟩ := exists_grid_sub nearest some few pos
      digits places (held store) half (div_le_self pos.le one) rounded
    rw [abs_of_nonneg (sub_nonneg.mpr le)]
    exact ⟨e, within, grid, size⟩

end Tariff.RoundingMode
