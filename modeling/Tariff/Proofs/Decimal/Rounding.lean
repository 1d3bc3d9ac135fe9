import Tariff.Proofs.Decimal.Operations

/-!
# Rounding decimals on the numbers they denote

`Decimal.roundSignificant?` counts the digits of a mantissa and moves the point;
on the number this is `RoundingMode.toDigits`, which knows of no mantissa.

## Main statements

* `Decimal.size_toRat` — the digits of a mantissa tell the size of the number
* `Decimal.toRat_roundSignificant?` — a decimal rounded to digits denotes the
  number rounded to digits
* `Decimal.toRat_roundPlaces` — the same for places after the point
-/

namespace Tariff.Decimal

/-! ## Counting digits -/

theorem digitCountUpTo_bounds {mantissa bound : ℕ} (pos : 0 < mantissa)
    (lt : mantissa < tenTo bound) :
    ∃ count, digitCountUpTo bound mantissa = count + 1 ∧ tenTo count ≤ mantissa ∧
      mantissa < tenTo (count + 1) := by
  induction bound with
  | zero =>
      rw [tenTo_zero] at lt
      omega
  | succ bound ih =>
      rw [digitCountUpTo]
      split
      · next reached => exact ⟨bound, rfl, reached, lt⟩
      · next below => exact ih (Nat.lt_of_not_le below)

/-- A mantissa lies between the powers of ten around its digit count. -/
theorem digitCount_bounds {d : Decimal} (nonzero : ¬ d.isZero = true) :
    ∃ count, digitCount d.mantissa = count + 1 ∧ tenTo count ≤ d.mantissa ∧
      d.mantissa < tenTo (count + 1) := by
  refine digitCountUpTo_bounds ?_ (d.mantissa_lt.trans (by decide))
  rw [isZero, beq_iff_eq] at nonzero
  omega

theorem abs_toRat (d : Decimal) : |d.toRat| = d.mantissa / 10 ^ (d.scale : ℤ) := by
  have nonneg : (0 : ℚ) ≤ d.mantissa / 10 ^ (d.scale : ℤ) := by positivity
  rw [toRat_eq, abs_signed, abs_of_nonneg nonneg]

/-- **The digits of a mantissa tell the size of the number.** -/
theorem size_toRat {d : Decimal} (nonzero : ¬ d.isZero = true) :
    RoundingMode.size d.toRat = digitCount d.mantissa - 1 - d.scale := by
  obtain ⟨count, eq, le, lt⟩ := digitCount_bounds nonzero
  have pos : (0 : ℚ) < 10 ^ (d.scale : ℤ) := by positivity
  have le' : (tenTo count : ℚ) ≤ d.mantissa := by exact_mod_cast le
  have lt' : (d.mantissa : ℚ) < tenTo (count + 1) := by exact_mod_cast lt
  rw [cast_tenTo] at le' lt'
  apply RoundingMode.size_eq
  · rw [abs_toRat, le_div_iff₀ pos, ← zpow_add₀ (by norm_num)]
    have exponent : ((digitCount d.mantissa : ℕ) : ℤ) - 1 - d.scale + d.scale = count := by
      rw [eq]
      push_cast
      ring
    rwa [exponent]
  · rw [abs_toRat, div_lt_iff₀ pos, ← zpow_add₀ (by norm_num)]
    have exponent : ((digitCount d.mantissa : ℕ) : ℤ) - 1 - d.scale + 1 + d.scale =
        (count + 1 : ℕ) := by
      rw [eq]
      push_cast
      ring
    rwa [exponent]

/-! ## Significant digits -/

/-- A number of no more digits than are kept is filled up with zeros. -/
theorem toDigits_of_digitCount_le (mode : RoundingMode) {d : Decimal} {count : ℕ}
    (nonzero : ¬ d.isZero = true) (le : digitCount d.mantissa ≤ count) :
    mode.toDigits count d.toRat = d.toRat := by
  obtain ⟨digits, eq, -, lt⟩ := digitCount_bounds nonzero
  have value : d.toRat = (d.signedMantissa : ℚ) * 10 ^ (-(d.scale : ℤ)) := by
    rw [toRat_eq, signed_div, cast_signedMantissa, zpow_neg, div_eq_mul_inv]
  rw [value]
  refine mode.toDigits_of_digits ?_
  have magnitude : |d.signedMantissa| = d.mantissa := by
    rw [signedMantissa]
    split <;> simp
  rw [magnitude]
  have few : d.mantissa < 10 ^ count :=
    lt.trans_le (Nat.pow_le_pow_right (by norm_num) (by omega))
  exact_mod_cast few

/-- A number of more digits than are kept is rounded by the quotient of its
mantissa. -/
theorem toDigits_of_lt_digitCount (mode : RoundingMode) {d : Decimal} {count : ℕ}
    (nonzero : ¬ d.isZero = true) (lt : count < digitCount d.mantissa) :
    mode.toDigits count d.toRat =
      signed d.negative (mode.quotient d.negative d.mantissa
        (tenTo (digitCount d.mantissa - count))) /
        10 ^ ((d.scale : ℤ) - (digitCount d.mantissa - count : ℕ)) := by
  have places : RoundingMode.placesFor count d.toRat =
      (d.scale : ℤ) - (digitCount d.mantissa - count : ℕ) := by
    rw [RoundingMode.placesFor, size_toRat nonzero]
    omega
  have taken : d.toRat * 10 ^ ((d.scale : ℤ) - (digitCount d.mantissa - count : ℕ)) =
      signed d.negative (d.mantissa / tenTo (digitCount d.mantissa - count)) := by
    have pos : (10 : ℚ) ^ (d.scale : ℤ) ≠ 0 := by positivity
    rw [toRat_eq, ← signed_mul, cast_tenTo, zpow_sub₀ (by norm_num)]
    congr 1
    field_simp
  rw [RoundingMode.toDigits, places, RoundingMode.atPlaces, taken,
    mode.whole_signed _ _ (tenTo_pos _)]

/-- **Significant digits.** -/
theorem toRat_roundSignificant? {mode : RoundingMode} {count : ℕ} {d e : Decimal}
    (h : d.roundSignificant? mode count = some e) : e.toRat = mode.toDigits count d.toRat := by
  rw [roundSignificant?] at h
  split at h
  · next zero =>
      rw [← Option.some.inj h, toRat_eq_zero zero, RoundingMode.toDigits_zero, toRat_zero]
  · next nonzero =>
      simp only at h
      split at h
      · next le =>
          have pos : (10 : ℚ) ^ ((count - digitCount d.mantissa : ℕ) : ℤ) ≠ 0 := by positivity
          rw [toDigits_of_digitCount_le mode nonzero le, toRat_of_ofParts? h, Nat.cast_mul,
            cast_tenTo, Nat.cast_add, zpow_add₀ (by norm_num), mul_div_mul_right _ _ pos,
            toRat_eq]
      · next gt =>
          rw [toDigits_of_lt_digitCount mode nonzero (Nat.lt_of_not_le gt)]
          split at h
          · next within =>
              rw [toRat_of_ofParts? h, signed_div, Nat.cast_sub within]
          · next beyond =>
              have shift : (d.scale : ℤ) - (digitCount d.mantissa - count : ℕ) =
                  -((digitCount d.mantissa - count - d.scale : ℕ) : ℤ) := by omega
              rw [toRat_of_ofParts? h, Nat.cast_mul, cast_tenTo, shift, zpow_neg,
                div_inv_eq_mul, signed_div, signed_mul]
              simp

/-- **The mantissa of a rounded number** has no more digits than are kept, but for a carry, unless
zeros stand before the point. -/
theorem mantissa_le_of_roundSignificant? {mode : RoundingMode} {count : ℕ} {d e : Decimal}
    (h : d.roundSignificant? mode count = some e) (small : |e.toRat| ≤ 10 ^ (count : ℤ)) :
    e.mantissa ≤ tenTo count := by
  rw [roundSignificant?] at h
  split at h
  · rw [← Option.some.inj h]
    exact Nat.zero_le _
  · next nonzero =>
      obtain ⟨digits, present, -, lt⟩ := digitCount_bounds nonzero
      simp only [present] at h
      split at h
      · next le =>
          obtain ⟨-, mantissa, -⟩ := ofParts?_eq_some_iff.mp h
          rw [mantissa, ← Nat.add_sub_cancel' le, tenTo_add, Nat.add_sub_cancel_left]
          exact Nat.mul_le_mul_right _ lt.le
      · next gt =>
          split at h
          · obtain ⟨-, mantissa, -⟩ := ofParts?_eq_some_iff.mp h
            have upper := (mode.quotient_bounds d.negative d.mantissa
              (tenTo (digits + 1 - count))).2
            have whole : d.mantissa / tenTo (digits + 1 - count) < tenTo count := by
              refine Nat.div_lt_of_lt_mul ?_
              rwa [← tenTo_add, Nat.sub_add_cancel (Nat.le_of_not_le gt)]
            omega
          · obtain ⟨-, -, scale⟩ := ofParts?_eq_some_iff.mp h
            rw [abs_toRat, scale, Nat.cast_zero, zpow_zero, div_one, ← cast_tenTo] at small
            exact_mod_cast small

/-! ## Places -/

/-- **Places.**  As long as no more places are asked for than there are, a
decimal rounded to places denotes the number rounded to places. -/
theorem toRat_roundPlaces (mode : RoundingMode) {places : ℕ} (within : places ≤ maxPlaces)
    (d : Decimal) : (d.roundPlaces mode places).toRat = mode.atPlaces places d.toRat := by
  rw [roundPlaces]
  split
  · next le =>
      have whole : d.toRat * 10 ^ (d.scale : ℤ) = d.signedMantissa := by
        simpa [mantissaAt, tenTo] using (d.cast_mantissaAt 0).symm
      exact (mode.atPlaces_of_whole (RoundingMode.whole_places le whole)).symm
  · next gt =>
      have gt : places < d.scale := Nat.lt_of_not_le gt
      have room : mode.quotient d.negative d.mantissa (tenTo (d.scale - places)) <
          mantissaLimit := by
        -- at least one digit is dropped, which leaves room for a carry
        obtain ⟨more, eq⟩ := Nat.exists_eq_add_of_lt gt
        have split : d.scale - places = more + 1 := by omega
        have tenth : d.mantissa / tenTo (d.scale - places) ≤ d.mantissa / 10 := by
          rw [split, tenTo_succ]
          exact Nat.div_le_div_left (Nat.le_mul_of_pos_left 10 (tenTo_pos more)) (by decide)
        have upper := (mode.quotient_bounds d.negative d.mantissa
          (tenTo (d.scale - places))).2
        have := d.mantissa_lt
        have : 1 < mantissaLimit := by decide
        omega
      have taken : d.toRat * 10 ^ (places : ℤ) =
          signed d.negative (d.mantissa / tenTo (d.scale - places)) := by
        have pos : (10 : ℚ) ^ (d.scale : ℤ) ≠ 0 := by positivity
        rw [toRat_eq, ← signed_mul, cast_tenTo, Nat.cast_sub gt.le, zpow_sub₀ (by norm_num)]
        congr 1
        field_simp
      have zeros : tenTo (places - maxPlaces) ∣
          mode.quotient d.negative d.mantissa (tenTo (d.scale - places)) := by
        rw [Nat.sub_eq_zero_of_le within]
        exact one_dvd _
      have parts : ofParts? (d.negative && (d.isZero || mode.quotient d.negative d.mantissa
          (tenTo (d.scale - places)) != 0)) _ places = some ⟨_, _, _, room, zeros⟩ :=
        ofParts?_eq_some_iff.mpr ⟨rfl, rfl, rfl⟩
      simp only
      rw [parts, Option.getD_some, toRat_of_ofParts? parts, RoundingMode.atPlaces, taken,
        mode.whole_signed _ _ (tenTo_pos _), ← signed_div]
      apply signed_congr
      intro ne
      have kept : mode.quotient d.negative d.mantissa (tenTo (d.scale - places)) ≠ 0 := by
        rintro zero
        simp [zero] at ne
      rw [bne_iff_ne.mpr kept, Bool.or_true, Bool.and_true]

end Tariff.Decimal
