import Tariff.Proofs.Decimal.Rounding

/-!
# Results that have room

An operation on decimals fails for one reason only: the whole part of the result
has more digits than a mantissa.  Whether it does is a question about the number,
and not about the way in which the operands are written.

## Main statements

* `Decimal.fit?_isSome_iff` — when a fraction is stored at all
* `Decimal.add?_isSome_iff`, `Decimal.multiply?_isSome_iff`,
  `Decimal.divide?_isSome_iff` — when there is a sum, a product or a quotient
* `Decimal.roundSignificant?_isSome_iff` — when a number can be rounded to digits
-/

namespace Tariff

/-- A mantissa that has room at some scale has room at every smaller one. -/
theorem RoundingMode.fits_of_le {mode : RoundingMode} {x : ℚ} {small large : ℕ}
    (le : small ≤ large) (h : mode.fits x large) : mode.fits x small := by
  have power : (10 : ℚ) ^ (small : ℤ) ≤ 10 ^ (large : ℤ) :=
    zpow_le_zpow_right₀ (by norm_num) (by exact_mod_cast le)
  have nonneg : ∀ (mode : RoundingMode) (x : ℚ), 0 ≤ x → mode.fits x large → mode.fits x small := by
    intro mode x nonneg h
    rw [mode.fits_iff nonneg] at h ⊢
    exact (mode.whole_mono (mul_le_mul_of_nonneg_left power nonneg)).trans_lt h
  rcases le_total 0 x with pos | neg
  · exact nonneg mode x pos h
  · rw [← neg_neg x, fits_neg] at h ⊢
    exact nonneg mode.mirror (-x) (neg_nonneg.mpr neg) h

namespace Decimal

variable {a b d : Decimal} {mode : RoundingMode} {negative : Bool} {dividend divisor scale count : ℕ}

theorem abs_toRat_le (d : Decimal) : |d.toRat| ≤ d.mantissa := by
  rw [abs_toRat]
  exact div_le_self (Nat.cast_nonneg _) (one_le_zpow₀ (by norm_num) (by omega))

theorem abs_toRat_lt (d : Decimal) : |d.toRat| < mantissaLimit :=
  d.abs_toRat_le.trans_lt (by exact_mod_cast d.mantissa_lt)

/-- Every decimal has room where it stands. -/
theorem fits_toRat (mode : RoundingMode) (d : Decimal) : mode.fits d.toRat 0 := by
  have le : |d.toRat * 10 ^ ((0 : ℕ) : ℤ)| ≤ ((d.mantissa : ℤ) : ℚ) := by
    simpa using d.abs_toRat_le
  exact (mode.abs_whole_le le).trans_lt (by exact_mod_cast d.mantissa_lt)

/-! ## Storing a fraction -/

/-- **A fraction is stored** exactly when its whole part has room. -/
theorem fit?_isSome_iff (pos : 0 < divisor) :
    (fit? mode negative dividend divisor scale).isSome = true ↔
      mode.fits (signed negative (dividend / divisor)) 0 := by
  induction scale with
  | zero =>
      rw [fit?, Option.isSome_iff_exists]
      constructor
      · rintro ⟨d, h⟩
        exact (toRat_of_fitAt? pos h).1
      · exact exists_fitAt? pos (fun behind => absurd behind (by decide))
  | succ scale ih =>
      rw [fit?]
      split
      · next d hit =>
          simp only [Option.isSome_some, true_iff]
          exact RoundingMode.fits_of_le (Nat.zero_le _) (toRat_of_fitAt? pos hit).1
      · exact ih

/-- **There is a sum** exactly when its whole part has room. -/
theorem add?_isSome_iff :
    (a.add? b).isSome = true ↔ RoundingMode.halfEven.fits (a.toRat + b.toRat) 0 := by
  rw [add?]
  split
  · next zero => simp [toRat_eq_zero zero, fits_toRat]
  · split
    · next zero => simp [toRat_eq_zero zero, fits_toRat]
    · rw [fit?_isSome_iff (tenTo_pos _),
        (add_eq_signed a b (le_max_left _ _) (le_max_right _ _) rfl).1]

/-- **There is a product** exactly when its whole part has room. -/
theorem multiply?_isSome_iff :
    (a.multiply? b).isSome = true ↔ RoundingMode.halfEven.fits (a.toRat * b.toRat) 0 := by
  rw [multiply?]
  split
  · next zero =>
      have factor : a.toRat * b.toRat = 0 := by
        rw [Bool.or_eq_true] at zero
        exact mul_eq_zero.mpr (zero.imp toRat_eq_zero toRat_eq_zero)
      rw [factor]
      simpa using fits_toRat .halfEven .zero
  · rw [fit?_isSome_iff (tenTo_pos _), multiply_eq_signed]

/-- A product depends on numbers only, not on the way in which they are written. -/
theorem exists_multiply? {x y result : Decimal} (ha : a.toRat = x.toRat) (hb : b.toRat = y.toRat)
    (h : a.multiply? b = some result) :
    ∃ other, x.multiply? y = some other ∧ result.toRat = other.toRat := by
  have room : (x.multiply? y).isSome = true := by
    rw [multiply?_isSome_iff, ← ha, ← hb, ← multiply?_isSome_iff, h, Option.isSome_some]
  obtain ⟨other, hother⟩ := Option.isSome_iff_exists.mp room
  exact ⟨other, hother, by rw [toRat_multiply? h, toRat_multiply? hother, ha, hb]⟩

/-- However a quotient is rounded, it has room where half-even rounding finds it. -/
theorem fits_quotientMode_iff (x : ℚ) (scale : ℕ) :
    (quotientMode a b).fits x scale ↔ RoundingMode.halfEven.fits x scale := by
  rw [quotientMode]
  split
  · exact RoundingMode.fits_halfUp_iff x scale
  · rfl

/-- **There is a quotient** exactly when its whole part has room. -/
theorem divide?_isSome_iff (nonzero : ¬ b.isZero = true) :
    (a.divide? b).isSome = true ↔ RoundingMode.halfEven.fits (a.toRat / b.toRat) 0 := by
  rw [divide?]
  split
  · next zero =>
      rw [toRat_eq_zero zero, zero_div]
      simpa using fits_toRat .halfEven .zero
  · have pos : 0 < b.mantissa * tenTo a.scale := by
      rw [isZero, beq_iff_eq] at nonzero
      exact Nat.mul_pos (Nat.pos_of_ne_zero nonzero) (tenTo_pos _)
    rw [fit?_isSome_iff pos, fits_quotientMode_iff, divide_eq_signed]

/-! ## Rounding to digits -/

/-- Parts within the bounds make a decimal. -/
theorem ofParts?_isSome {mantissa : ℕ} (room : mantissa < mantissaLimit)
    (zeros : tenTo (scale - maxPlaces) ∣ mantissa) :
    (ofParts? negative mantissa scale).isSome = true := by
  rw [ofParts?, dif_pos ⟨room, zeros⟩, Option.isSome_some]

/-- A short mantissa has room for zeros behind it. -/
theorem padded_isSome (few : count ≤ 28) (nonzero : ¬ d.isZero = true)
    (le : digitCount d.mantissa ≤ count) :
    (ofParts? d.negative (d.mantissa * tenTo (count - digitCount d.mantissa))
      (d.scale + (count - digitCount d.mantissa))).isSome = true := by
  obtain ⟨digits, eq, -, lt⟩ := digitCount_bounds nonzero
  rw [eq] at le ⊢
  apply ofParts?_isSome
  · calc d.mantissa * tenTo (count - (digits + 1))
        < tenTo (digits + 1) * tenTo (count - (digits + 1)) :=
          Nat.mul_lt_mul_of_pos_right lt (tenTo_pos _)
      _ = tenTo count := by rw [← tenTo_add, Nat.add_sub_cancel' le]
      _ ≤ tenTo 28 := Nat.pow_le_pow_right (by decide) few
      _ < mantissaLimit := by decide
  · rcases le_total maxPlaces d.scale with behind | within
    · rw [Nat.sub_add_comm behind, tenTo_add]
      exact Nat.mul_dvd_mul_right d.dvd_mantissa _
    · exact (Nat.pow_dvd_pow 10 (by omega)).mul_left _

/-- Dropping digits behind the point makes room. -/
theorem shortened_isSome {surplus : ℕ} (positive : 0 < surplus) (within : surplus ≤ d.scale) :
    (ofParts? d.negative (mode.quotient d.negative d.mantissa (tenTo surplus))
      (d.scale - surplus)).isSome = true := by
  apply ofParts?_isSome
  · obtain ⟨more, rfl⟩ := Nat.exists_eq_add_one.mpr positive
    have tenth : d.mantissa / tenTo (more + 1) ≤ d.mantissa / 10 := by
      rw [tenTo_succ]
      exact Nat.div_le_div_left (Nat.le_mul_of_pos_left 10 (tenTo_pos more)) (by decide)
    have upper := (mode.quotient_bounds d.negative d.mantissa (tenTo (more + 1))).2
    have room := d.mantissa_lt
    have limit : 1 < mantissaLimit := by decide
    omega
  · rcases le_total (d.scale - surplus) maxPlaces with few | behind
    · rw [Nat.sub_eq_zero_of_le few]
      exact one_dvd _
    · -- behind the last place only zeros are dropped
      obtain ⟨rest, eq⟩ := d.dvd_mantissa
      have split : d.scale - maxPlaces = surplus + (d.scale - surplus - maxPlaces) := by omega
      rw [split, tenTo_add, Nat.mul_assoc] at eq
      rw [eq, mode.quotient_exact d.negative (tenTo_pos surplus) (Nat.mul_mod_right _ _),
        Nat.mul_div_cancel_left _ (tenTo_pos surplus)]
      exact dvd_mul_right _ _

/-- **A number is rounded to digits** exactly when the rounded number has room. -/
theorem roundSignificant?_isSome_iff (few : count ≤ 28) :
    (d.roundSignificant? mode count).isSome = true ↔
      |mode.toDigits count d.toRat| < mantissaLimit := by
  constructor
  · intro h
    obtain ⟨e, h⟩ := Option.isSome_iff_exists.mp h
    rw [← toRat_roundSignificant? h]
    exact e.abs_toRat_lt
  · intro room
    rw [roundSignificant?]
    split
    · rfl
    · next nonzero =>
        dsimp only
        split
        · next le => exact padded_isSome few nonzero le
        · next gt =>
            have gt := Nat.lt_of_not_le gt
            split
            · next within => exact shortened_isSome (Nat.sub_pos_of_lt gt) within
            · next beyond =>
                have whole : (d.scale : ℤ) - (digitCount d.mantissa - count : ℕ) =
                    -((digitCount d.mantissa - count - d.scale : ℕ) : ℤ) := by omega
                rw [toDigits_of_lt_digitCount mode nonzero gt, whole, zpow_neg, div_inv_eq_mul,
                  ← signed_mul, abs_signed, ← cast_tenTo, ← Nat.cast_mul, Nat.abs_cast] at room
                exact ofParts?_isSome (by exact_mod_cast room) (one_dvd _)

end Decimal

end Tariff
