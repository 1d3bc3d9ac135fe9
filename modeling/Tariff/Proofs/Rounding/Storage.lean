import Tariff.Decimal.Basic
import Tariff.Proofs.Rounding.Places

/-!
# Storing rational numbers

A result is stored with as many places as its mantissa has room for.  Here this
is a function on rational numbers, so that what is stored depends on the number
alone and not on the decimals from which it was calculated.

## Main definitions

* `RoundingMode.fits` — whether a mantissa has room at some scale
* `RoundingMode.stored` — a number at the largest scale where it has room

## Main statements

* `RoundingMode.stored_mono` — storing keeps the order of numbers
* `RoundingMode.stored_le_stored_of_lt` — different numbers keep it under two
  nearest modes
* `RoundingMode.stored_of_whole`, `RoundingMode.stored_of_digits` — a number that
  fits is stored as it is
* `RoundingMode.stored_succ_of_whole` — a place more changes nothing for a number
  that needs none

## Design notes

The order is the one point where the bound of the mantissa matters.  A number
that has lost a place lies on a coarser grid than a smaller one that has not,
and could be rounded below it.  It is not: the bound is six more than a multiple
of ten, so that whatever reaches it is rounded up to the next multiple, as long
as the mode rounds to the nearest number (`le_whole_of_tenfold`).
-/

namespace Tariff.RoundingMode

/-- Whether the mantissa of a number has room at a scale. -/
def fits (mode : RoundingMode) (x : ℚ) (scale : ℕ) : Prop :=
  |mode.whole (x * 10 ^ (scale : ℤ))| < (mantissaLimit : ℤ)

instance (mode : RoundingMode) (x : ℚ) (scale : ℕ) : Decidable (mode.fits x scale) := by
  unfold fits
  infer_instance

/-- **Stored number.**  A number at the largest scale, not above the given one,
where its mantissa has room. -/
def stored (mode : RoundingMode) (x : ℚ) : ℕ → ℚ
  | 0 => mode.atPlaces 0 x
  | scale + 1 =>
      if mode.fits x (scale + 1) then mode.atPlaces (scale + 1 : ℕ) x
      else mode.stored x scale

theorem fits_iff (mode : RoundingMode) {x : ℚ} (nonneg : 0 ≤ x) (scale : ℕ) :
    mode.fits x scale ↔ mode.whole (x * 10 ^ (scale : ℤ)) < mantissaLimit := by
  rw [fits, abs_of_nonneg (mode.whole_nonneg (by positivity))]

theorem fits_neg (mode : RoundingMode) (x : ℚ) (scale : ℕ) :
    mode.fits (-x) scale ↔ mode.mirror.fits x scale := by
  rw [fits, fits, neg_mul, whole_neg, abs_neg]

/-- From the middle half-up and half-even rounding part, but the greatest mantissa is odd, so that
both leave it or both keep it. -/
theorem fits_halfUp_iff (x : ℚ) (scale : ℕ) : halfUp.fits x scale ↔ halfEven.fits x scale := by
  have limit : (mantissaLimit : ℤ) = 79228162514264337593543950336 := rfl
  wlog nonneg : 0 ≤ x generalizing x
  · rw [← neg_neg x, fits_neg, fits_neg halfEven]
    exact this (-x) (neg_nonneg.mpr (le_of_not_ge nonneg))
  rw [fits_iff halfUp nonneg, fits_iff halfEven nonneg]
  have scaled : 0 ≤ x * 10 ^ (scale : ℤ) := by positivity
  rcases whole_halfUp_eq_or scaled with same | ⟨k, -, down, up⟩
  · rw [same]
  · rw [down, up]
    omega

theorem stored_neg (mode : RoundingMode) (x : ℚ) (scale : ℕ) :
    mode.stored (-x) scale = -mode.mirror.stored x scale := by
  induction scale with
  | zero => exact mode.atPlaces_neg 0 x
  | succ scale ih =>
      simp only [stored, fits_neg]
      split
      · exact mode.atPlaces_neg _ x
      · exact ih

/-! ## Numbers that fit -/

/-- A number that fills fewer places fills more of them with zeros. -/
theorem whole_places {x : ℚ} {n : ℤ} {places scale : ℕ} (le : places ≤ scale)
    (eq : x * 10 ^ (places : ℤ) = n) :
    x * 10 ^ (scale : ℤ) = (n * 10 ^ (scale - places) : ℤ) := by
  obtain ⟨more, rfl⟩ := Nat.exists_eq_add_of_le le
  push_cast
  rw [zpow_add₀ (by norm_num), ← mul_assoc, eq, Nat.add_sub_cancel_left, zpow_natCast]

/-- A number whose mantissa has room at some scale is stored as it is. -/
theorem stored_of_whole (mode : RoundingMode) {x : ℚ} {n : ℤ} {places scale : ℕ}
    (le : places ≤ scale) (eq : x * 10 ^ (places : ℤ) = n) (room : |n| < mantissaLimit) :
    mode.stored x scale = x := by
  induction scale with
  | zero =>
      obtain rfl := Nat.le_zero.mp le
      exact mode.atPlaces_of_whole (n := n) (by simpa using eq)
  | succ scale ih =>
      rw [stored]
      split
      · exact mode.atPlaces_of_whole (whole_places le eq)
      · next full =>
          -- The scale at which there is room is tried at last.
          rcases le.lt_or_eq with lt | rfl
          · exact ih (Nat.le_of_lt_succ lt)
          · rw [fits, eq, whole_intCast] at full
            exact absurd room full

/-- A whole number is stored as it is, also where its mantissa has no room: the
places behind the point are given up, but no digit in front of it. -/
theorem stored_intCast (mode : RoundingMode) (n : ℤ) (scale : ℕ) : mode.stored n scale = n := by
  have whole : (n : ℚ) * 10 ^ ((0 : ℕ) : ℤ) = n := by simp
  induction scale with
  | zero => exact mode.atPlaces_of_whole whole
  | succ scale ih =>
      rw [stored]
      split
      · exact mode.atPlaces_of_whole (whole_places (Nat.zero_le _) whole)
      · exact ih

/-- **Few digits.**  A number of few digits that does not reach behind the last
place is stored as it is. -/
theorem stored_of_digits (mode : RoundingMode) {x : ℚ} {n exponent : ℤ} {scale : ℕ}
    (eq : x = n * 10 ^ exponent) (within : -(scale : ℤ) ≤ exponent)
    (room : |n| < mantissaLimit) : mode.stored x scale = x := by
  rcases le_total 0 exponent with whole | places
  · obtain ⟨k, rfl⟩ := Int.eq_ofNat_of_zero_le whole
    have cast : x = (n * 10 ^ k : ℤ) := by
      rw [eq]
      push_cast
      rw [zpow_natCast]
    rw [cast, mode.stored_intCast]
  · obtain ⟨k, hk⟩ := Int.eq_ofNat_of_zero_le (neg_nonneg.mpr places)
    have whole : x * 10 ^ (k : ℤ) = n := by
      rw [eq, mul_assoc, ← zpow_add₀ (by norm_num), ← hk, add_neg_cancel, zpow_zero, mul_one]
    exact mode.stored_of_whole (by omega) whole room

/-- A place more changes nothing for a number that needs none. -/
theorem stored_succ_of_whole (mode : RoundingMode) {x : ℚ} {n : ℤ} {scale : ℕ}
    (eq : x * 10 ^ (scale : ℤ) = n) : mode.stored x (scale + 1) = mode.stored x scale := by
  have next := whole_places scale.le_succ eq
  rw [stored]
  split
  · next room =>
      have one : scale.succ - scale = 1 := by omega
      rw [fits, next, whole_intCast, one, pow_one, abs_mul,
        abs_of_nonneg (by norm_num : (0 : ℤ) ≤ 10)] at room
      have room' : |n| < mantissaLimit := by
        have := abs_nonneg n
        omega
      rw [mode.atPlaces_of_whole next, mode.stored_of_whole le_rfl eq room']
  · rfl

/-- Further places change nothing for a number that needs none. -/
theorem stored_of_le (mode : RoundingMode) {x : ℚ} {n : ℤ} {places scale : ℕ}
    (le : places ≤ scale) (eq : x * 10 ^ (places : ℤ) = n) :
    mode.stored x scale = mode.stored x places := by
  induction scale with
  | zero => rw [Nat.le_zero.mp le]
  | succ scale ih =>
      rcases le.lt_or_eq with lt | rfl
      · have le' := Nat.le_of_lt_succ lt
        rw [mode.stored_succ_of_whole (whole_places le' eq), ih le']
      · rfl

@[simp] theorem stored_zero (mode : RoundingMode) (scale : ℕ) : mode.stored 0 scale = 0 :=
  mode.stored_of_whole (n := 0) (Nat.zero_le scale) (by simp) (by decide)

/-! ## Order -/

theorem isNearest_mirror {mode : RoundingMode} (nearest : mode.isNearest = true) :
    mode.mirror.isNearest = true := by
  cases mode <;> simp_all [isNearest, mirror]

theorem zpow_place_succ (places : ℕ) :
    (10 : ℚ) ^ ((places + 1 : ℕ) : ℤ) = 10 ^ (places : ℤ) * 10 := by
  rw [Nat.cast_succ, zpow_add_one₀ (by norm_num)]

/-- A mantissa that is too long by a digit does not become shorter than the
longest one when that digit is rounded away. -/
theorem le_whole_of_tenfold {mode : RoundingMode} (nearest : mode.isNearest = true) {x : ℚ}
    (full : (mantissaLimit : ℤ) ≤ mode.whole (x * 10)) :
    ((mantissaLimit : ℚ) - 1) / 10 ≤ mode.whole x := by
  have tenfold := (abs_le.mp (abs_whole_sub_le_half nearest (x * 10))).2
  have near := (abs_le.mp (abs_whole_sub_le_half nearest x)).1
  have full' : ((mantissaLimit : ℤ) : ℚ) ≤ mode.whole (x * 10) := by exact_mod_cast full
  have rounded : (2 * mantissaLimit - 11 : ℤ) ≤ 20 * mode.whole x := by
    have : ((2 * mantissaLimit - 11 : ℤ) : ℚ) ≤ (20 * mode.whole x : ℤ) := by
      push_cast at full' ⊢
      linarith
    exact_mod_cast this
  have longest : (mantissaLimit - 1 : ℤ) ≤ mode.whole x * 10 := by
    -- The bound ends in a six: what two roundings take away does not reach down to the ten below.
    have bound : (mantissaLimit : ℤ) = 79228162514264337593543950336 := rfl
    omega
  rw [div_le_iff₀ (by norm_num)]
  exact_mod_cast longest

/-- A number without room at a scale is not stored below what has room there. -/
theorem le_stored_of_full {mode : RoundingMode} (nearest : mode.isNearest = true) {x : ℚ}
    {scale : ℕ} (full : (mantissaLimit : ℤ) ≤ mode.whole (x * 10 ^ ((scale + 1 : ℕ) : ℤ))) :
    ((mantissaLimit : ℚ) - 1) / 10 ^ ((scale + 1 : ℕ) : ℤ) ≤ mode.stored x scale := by
  induction scale with
  | zero =>
      rw [stored, atPlaces]
      rw [zpow_place_succ] at full ⊢
      simpa using le_whole_of_tenfold nearest (by simpa using full)
  | succ scale ih =>
      have pos : (0 : ℚ) < 10 ^ ((scale + 1 : ℕ) : ℤ) := by positivity
      rw [zpow_place_succ, ← mul_assoc] at full
      have nonneg : 0 ≤ x := by
        by_contra neg
        have := mode.whole_nonpos (x := x * 10 ^ ((scale + 1 : ℕ) : ℤ) * 10) (by nlinarith)
        exact absurd (full.trans this) (by decide)
      rw [zpow_place_succ, mul_comm, ← div_div]
      simp only [stored, mode.fits_iff nonneg]
      split
      · rw [atPlaces]
        exact div_le_div_of_nonneg_right (le_whole_of_tenfold nearest full) pos.le
      · -- Without room here either, the number falls through to the next scale.
        next full' =>
          refine le_trans ?_ (ih (not_lt.mp full'))
          exact div_le_div_of_nonneg_right (by norm_num) pos.le

/-- Different numbers that are not negative are stored in their order, also if each is stored in
a nearest mode of its own. -/
theorem stored_le_stored_of_nonneg {mode other : RoundingMode} (nearest : mode.isNearest = true)
    (nearest' : other.isNearest = true) (scale : ℕ) {x y : ℚ} (nonneg : 0 ≤ x) (lt : x < y) :
    mode.stored x scale ≤ other.stored y scale := by
  have nonneg' := nonneg.trans lt.le
  induction scale with
  | zero => exact atPlaces_le_atPlaces_of_lt nearest nearest' 0 lt
  | succ scale ih =>
      have pos : (0 : ℚ) < 10 ^ ((scale + 1 : ℕ) : ℤ) := by positivity
      have wholes := whole_le_whole_of_lt nearest nearest' (mul_lt_mul_of_pos_right lt pos)
      simp only [stored, mode.fits_iff nonneg, other.fits_iff nonneg']
      by_cases room : other.whole (y * 10 ^ ((scale + 1 : ℕ) : ℤ)) < mantissaLimit
      · rw [if_pos room, if_pos (wholes.trans_lt room)]
        exact atPlaces_le_atPlaces_of_lt nearest nearest' _ lt
      · rw [if_neg room]
        split
        · next room' =>
            -- Only the larger number has lost a place.
            refine le_trans ?_ (le_stored_of_full nearest' (not_lt.mp room))
            refine div_le_div_of_nonneg_right ?_ pos.le
            have := Int.le_sub_one_of_lt room'
            exact_mod_cast this
        · exact ih

theorem stored_nonneg {mode : RoundingMode} (nearest : mode.isNearest = true) (scale : ℕ) {x : ℚ}
    (nonneg : 0 ≤ x) : 0 ≤ mode.stored x scale := by
  rcases nonneg.eq_or_lt with rfl | pos
  · rw [stored_zero]
  · exact (mode.stored_zero scale).symm.trans_le
      (stored_le_stored_of_nonneg nearest nearest scale le_rfl pos)

/-- **Different numbers are stored in their order**, also if each is stored in a nearest mode of
its own. -/
theorem stored_le_stored_of_lt {mode other : RoundingMode} (nearest : mode.isNearest = true)
    (nearest' : other.isNearest = true) (scale : ℕ) {x y : ℚ} (lt : x < y) :
    mode.stored x scale ≤ other.stored y scale := by
  have turned (mode : RoundingMode) (z : ℚ) :
      mode.stored z scale = -mode.mirror.stored (-z) scale := by
    rw [← stored_neg, neg_neg]
  rcases le_or_gt 0 x with nonneg | neg
  · exact stored_le_stored_of_nonneg nearest nearest' scale nonneg lt
  · rw [turned mode x]
    rcases le_or_gt 0 y with nonneg' | neg'
    · have below := stored_nonneg (isNearest_mirror nearest) scale (neg_pos.mpr neg).le
      exact (neg_nonpos.mpr below).trans (stored_nonneg nearest' scale nonneg')
    · rw [turned other y]
      exact neg_le_neg (stored_le_stored_of_nonneg (isNearest_mirror nearest')
        (isNearest_mirror nearest) scale (neg_pos.mpr neg').le (neg_lt_neg lt))

/-- **Storing keeps the order of numbers**, in a mode that rounds to the nearest
number. -/
theorem stored_mono {mode : RoundingMode} (nearest : mode.isNearest = true) (scale : ℕ) :
    Monotone (fun x => mode.stored x scale) := by
  intro x y le
  rcases le.eq_or_lt with rfl | lt
  · exact le_rfl
  · exact stored_le_stored_of_lt nearest nearest scale lt

end Tariff.RoundingMode
