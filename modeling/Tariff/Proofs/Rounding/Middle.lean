import Tariff.Proofs.Rounding.Twice

/-!
# Numbers in the middle

Half-up and half-even rounding part in the middle between two mantissas, above an
even one.  A number that fills the mantissa is then stored with mantissas that are
one apart, and which of the two it is shows in its last digit only.

## Main statements

* `RoundingMode.stored_halfUp_eq_or` — both modes store alike, or at a mantissa
  and the one after it
* `RoundingMode.toDigits_two_fifths` — mantissas with a last digit of two and
  three, or seven and eight, are rounded alike
* `RoundingMode.toDigits_stored_halfUp` — where both storages have the same digits

## Design notes

No rounding to fewer digits is told by the last digit alone, unless one of the two
mantissas ends in a zero or a five: all bounds between the results of rounding are
multiples of five.
-/

namespace Tariff.RoundingMode

variable {mode : RoundingMode} {x : ℚ} {count k : ℕ}

/-- **A number that fills the mantissa** is stored alike half-up and half-even, or lies in the
middle above an even mantissa. -/
theorem stored_halfUp_eq_or {scale : ℕ} (nonneg : 0 ≤ x)
    (full : (mantissaLimit : ℚ) - 1 / 2 ≤ x * 10 ^ ((scale + 1 : ℕ) : ℤ)) :
    halfUp.stored x scale = halfEven.stored x scale ∨
      ∃ places k : ℕ, x * 10 ^ (places : ℤ) = 2 * k + 1 / 2 ∧ mantissaLimit ≤ 20 * k + 5 ∧
        halfEven.stored x scale = 2 * k / 10 ^ (places : ℤ) ∧
          halfUp.stored x scale = (2 * k + 1) / 10 ^ (places : ℤ) := by
  -- at whichever place the number is stored, it has no room at the next one
  have placed (places : ℕ)
      (full : (mantissaLimit : ℚ) - 1 / 2 ≤ x * 10 ^ ((places + 1 : ℕ) : ℤ)) :
      halfUp.atPlaces places x = halfEven.atPlaces places x ∨
        ∃ k : ℕ, x * 10 ^ (places : ℤ) = 2 * k + 1 / 2 ∧ mantissaLimit ≤ 20 * k + 5 ∧
          halfEven.atPlaces places x = 2 * k / 10 ^ (places : ℤ) ∧
            halfUp.atPlaces places x = (2 * k + 1) / 10 ^ (places : ℤ) := by
    have scaled : 0 ≤ x * 10 ^ (places : ℤ) := by positivity
    rcases whole_halfUp_eq_or scaled with same | ⟨k, middle, down, up⟩
    · exact .inl (by rw [atPlaces, atPlaces, same])
    · refine .inr ⟨k, middle, ?_, ?_, ?_⟩
      · rw [zpow_place_succ, ← mul_assoc, middle] at full
        have bound : ((2 * mantissaLimit : ℕ) : ℚ) ≤ (2 * (20 * k + 5) + 1 : ℕ) := by
          push_cast at full ⊢
          linarith
        have := Nat.cast_le.mp bound
        omega
      · rw [atPlaces, down]
        push_cast
        rfl
      · rw [atPlaces, up]
        push_cast
        rfl
  induction scale with
  | zero =>
      rcases placed 0 full with same | ⟨k, middle, filled, down, up⟩
      · exact .inl same
      · exact .inr ⟨0, k, middle, filled, down, up⟩
  | succ scale ih =>
      rw [stored, stored]
      simp only [fits_halfUp_iff]
      split
      · rcases placed (scale + 1) full with same | ⟨k, middle, filled, down, up⟩
        · exact .inl same
        · exact .inr ⟨scale + 1, k, middle, filled, down, up⟩
      · next out =>
          refine ih ?_
          rw [fits_iff halfEven nonneg, not_lt] at out
          have nearest : halfEven.isNearest = true := rfl
          have near := (abs_le.mp (abs_whole_sub_le_half nearest
            (x * 10 ^ ((scale + 1 : ℕ) : ℤ)))).2
          have out : (mantissaLimit : ℚ) ≤ halfEven.whole (x * 10 ^ ((scale + 1 : ℕ) : ℤ)) := by
            exact_mod_cast out
          exact (sub_le_sub_right out _).trans (sub_le_comm.mp near)

/-- **Neighbours with no multiple of five between them** have the same digits but for the last
one. -/
theorem toDigits_two_fifths (few : count ≤ 27) (filled : mantissaLimit ≤ 20 * k + 5)
    (fifth : k % 5 = 1) (places : ℤ) :
    mode.toDigits count (2 * k / 10 ^ places) = mode.toDigits count ((2 * k + 1) / 10 ^ places) := by
  have scale : (0 : ℚ) < 10 ^ places := by positivity
  have limit : 10 ^ 27 ≤ 2 * k := by
    have : mantissaLimit = 79228162514264337593543950336 := rfl
    omega
  have positive : (0 : ℚ) < 2 * k := by exact_mod_cast (by positivity : 0 < 10 ^ 27).trans_le limit
  refine toDigits_eq_of_halves (by positivity)
    (div_le_div_of_nonneg_right (by linarith) scale.le) ?_
  rintro n ⟨lower, upper⟩
  -- a half step is a multiple of five of the last digit of both numbers
  have reached : 27 - places ≤ size (2 * k / 10 ^ places) := by
    refine le_size ?_
    rw [le_div_iff₀ scale, ← zpow_add₀ (by norm_num), sub_add_cancel]
    exact_mod_cast limit
  obtain ⟨j, hj⟩ := Int.eq_ofNat_of_zero_le
    (by rw [placesFor]; omega : 0 ≤ places - 1 - placesFor count (2 * k / 10 ^ places))
  have steps : (n : ℚ) / 2 / 10 ^ placesFor count (2 * k / 10 ^ places) =
      (5 * (n * 10 ^ j) : ℤ) / 10 ^ places := by
    have exponent : placesFor count (2 * k / 10 ^ places) = places - 1 - j := by omega
    rw [exponent, zpow_sub₀ (by norm_num), zpow_sub₀ (by norm_num), zpow_one, zpow_natCast]
    push_cast
    field_simp
    ring
  rw [steps, div_le_div_iff_of_pos_right scale] at lower upper
  have lower : (2 * k : ℤ) ≤ 5 * (n * 10 ^ j) := by exact_mod_cast lower
  have upper : 5 * (n * 10 ^ j) ≤ (2 * k + 1 : ℤ) := by exact_mod_cast upper
  omega

/-- **Both storages have the same digits** but for the last one, unless the mantissas in question
end in a zero or a five. -/
theorem toDigits_stored_halfUp (few : count ≤ 27) {scale : ℕ}
    (full : (mantissaLimit : ℚ) ≤ |x| * 10 ^ (scale : ℤ))
    (fifth : ∀ places k : ℕ, |x| * 10 ^ (places : ℤ) = 2 * k + 1 / 2 →
      mantissaLimit ≤ 20 * k + 5 → k % 5 = 1) :
    mode.toDigits count (halfUp.stored x scale) =
      mode.toDigits count (halfEven.stored x scale) := by
  wlog nonneg : 0 ≤ x generalizing x mode
  · have turned : mode.mirror.toDigits count (halfUp.stored (-x) scale) =
        mode.mirror.toDigits count (halfEven.stored (-x) scale) :=
      this (by rwa [abs_neg]) (by rwa [abs_neg]) (neg_nonneg.mpr (le_of_not_ge nonneg))
    rw [stored_neg, stored_neg, toDigits_neg, toDigits_neg, mirror_mirror, neg_inj] at turned
    exact turned
  rw [abs_of_nonneg nonneg] at full fifth
  have next : (mantissaLimit : ℚ) - 1 / 2 ≤ x * 10 ^ ((scale + 1 : ℕ) : ℤ) := by
    rw [zpow_place_succ, ← mul_assoc]
    have tenfold : x * 10 ^ (scale : ℤ) ≤ x * 10 ^ (scale : ℤ) * 10 :=
      le_mul_of_one_le_right (by positivity) (by norm_num)
    exact (sub_le_self _ (by norm_num)).trans (full.trans tenfold)
  rcases stored_halfUp_eq_or nonneg next with same | ⟨places, k, middle, filled, down, up⟩
  · rw [same]
  · rw [down, up, toDigits_two_fifths few filled (fifth places k middle filled)]

end Tariff.RoundingMode
