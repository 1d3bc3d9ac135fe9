import Tariff.Proofs.Rounding.Storage

/-!
# The numbers that decimals denote

One number is written by several decimals.  `Decimal.toRat` forgets the writing,
and the questions that a calculation asks of a decimal (its order, whether it is
zero, whether it is negative) are questions about its value.

## Main statements

* `Decimal.toRat_eq` — the value as a fraction with a sign
* `Decimal.below_iff`, `Decimal.sameValue_iff` — the order of decimals is that of
  their values
* `Decimal.isZero_iff`, `Decimal.isNegative_iff` — zero and negative numbers
* `Decimal.toRat_normalize` — the shortest writing denotes the same number
* `Decimal.stored_toRat` — every decimal is stored as it is
-/

namespace Tariff

theorem tenTo_eq (n : ℕ) : tenTo n = 10 ^ n := rfl

theorem cast_tenTo (n : ℕ) : (tenTo n : ℚ) = 10 ^ (n : ℤ) := by
  rw [tenTo_eq]
  push_cast
  rw [zpow_natCast]

namespace Decimal

theorem cast_signedMantissa (d : Decimal) :
    (d.signedMantissa : ℚ) = signed d.negative d.mantissa := by
  rw [signedMantissa]
  cases d.negative <;> simp

/-- **Value.**  A decimal denotes its mantissa over a power of ten. -/
theorem toRat_eq (d : Decimal) :
    d.toRat = signed d.negative (d.mantissa / 10 ^ (d.scale : ℤ)) := by
  rw [toRat, Rat.mkRat_eq_div, cast_signedMantissa, cast_tenTo, signed_div]

theorem toRat_of_ofParts? {negative : Bool} {mantissa scale : ℕ} {d : Decimal}
    (h : ofParts? negative mantissa scale = some d) :
    d.toRat = signed negative (mantissa / 10 ^ (scale : ℤ)) := by
  obtain ⟨rfl, rfl, rfl⟩ := ofParts?_eq_some_iff.mp h
  exact d.toRat_eq

/-- Digits with a point among them denote a multiple of a power of ten. -/
theorem toRat_ofDigits {mantissa scale : ℕ} (room : mantissa < mantissaLimit)
    (within : scale ≤ maxPlaces) :
    (ofDigits mantissa scale).toRat = mantissa * 10 ^ (-(scale : ℤ)) := by
  have zeros : tenTo (scale - maxPlaces) ∣ mantissa := by
    rw [Nat.sub_eq_zero_of_le within]
    exact one_dvd mantissa
  have parts : ofParts? false mantissa scale = some ⟨false, mantissa, scale, room, zeros⟩ :=
    ofParts?_eq_some_iff.mpr ⟨rfl, rfl, rfl⟩
  rw [ofDigits, parts, Option.getD_some, toRat_of_ofParts? parts, zpow_neg, ← div_eq_mul_inv,
    signed_false]

@[simp] theorem toRat_zero : zero.toRat = 0 := by
  simp [toRat_eq, zero]

@[simp] theorem toRat_one : one.toRat = 1 := by
  simp [toRat_eq, one]

@[simp] theorem toRat_negate (d : Decimal) : d.negate.toRat = -d.toRat := by
  rw [toRat_eq, toRat_eq, negate]
  cases d.negative <;> simp

/-! ## Zero and negative numbers -/

theorem isZero_iff (d : Decimal) : d.isZero = true ↔ d.toRat = 0 := by
  rw [isZero, beq_iff_eq, toRat_eq]
  cases d.negative <;> simp

theorem toRat_eq_zero {d : Decimal} (zero : d.isZero = true) : d.toRat = 0 :=
  d.isZero_iff.mp zero

theorem toRat_ne_zero {d : Decimal} (nonzero : ¬ d.isZero = true) : d.toRat ≠ 0 :=
  fun eq => nonzero (d.isZero_iff.mpr eq)

theorem isNegative_iff (d : Decimal) : d.isNegative = true ↔ d.toRat < 0 := by
  have magnitude : (0 : ℚ) ≤ d.mantissa / 10 ^ (d.scale : ℤ) := by positivity
  have nonzero := d.isZero_iff
  rw [toRat_eq] at nonzero
  rw [isNegative, toRat_eq, Bool.and_eq_true, Bool.not_eq_true', ← Bool.not_eq_true, nonzero]
  cases d.negative with
  | false => simpa using magnitude
  | true =>
      rw [signed_true, neg_eq_zero, neg_lt_zero]
      simp only [true_and]
      exact (lt_iff_le_and_ne.trans ⟨fun h => h.2.symm, fun h => ⟨magnitude, Ne.symm h⟩⟩).symm

theorem toRat_nonneg {d : Decimal} (nonnegative : d.isNegative = false) : 0 ≤ d.toRat := by
  rw [← not_lt, ← isNegative_iff, nonnegative]
  simp

/-! ## Order -/

theorem cast_mantissaAt (d : Decimal) (more : ℕ) :
    (d.mantissaAt more : ℚ) = d.toRat * 10 ^ ((d.scale + more : ℕ) : ℤ) := by
  have pos : (10 : ℚ) ^ (d.scale : ℤ) ≠ 0 := by positivity
  rw [mantissaAt, Int.cast_mul, cast_signedMantissa, Int.cast_natCast, cast_tenTo, toRat_eq,
    signed_div, Nat.cast_add, zpow_add₀ (by norm_num)]
  field_simp

/-- Taken to a common scale, mantissas stand in the order of the values. -/
theorem mantissaAt_lt_iff (a b : Decimal) :
    a.mantissaAt b.scale < b.mantissaAt a.scale ↔ a.toRat < b.toRat := by
  have pos : (0 : ℚ) < 10 ^ ((a.scale + b.scale : ℕ) : ℤ) := by positivity
  rw [← Int.cast_lt (R := ℚ), cast_mantissaAt, cast_mantissaAt, Nat.add_comm b.scale,
    mul_lt_mul_iff_left₀ pos]

/-- **Order.**  A decimal lies below another one when its value does. -/
theorem below_iff (a b : Decimal) : a.below b = true ↔ a.toRat < b.toRat := by
  rw [← mantissaAt_lt_iff, below, compare]
  split
  · simp [*]
  · split <;> simp [*]

theorem below_eq_false_iff (a b : Decimal) : a.below b = false ↔ b.toRat ≤ a.toRat := by
  rw [← Bool.not_eq_true, below_iff, not_lt]

/-- Decimals of the same value are those that denote one number. -/
theorem sameValue_iff (a b : Decimal) : a.sameValue b = true ↔ a.toRat = b.toRat := by
  have split_eq : a.toRat = b.toRat ↔ ¬ a.toRat < b.toRat ∧ ¬ b.toRat < a.toRat := by
    rw [not_lt, not_lt, le_antisymm_iff, and_comm]
  rw [split_eq, ← mantissaAt_lt_iff a b, ← mantissaAt_lt_iff b a, sameValue, compare]
  split
  · simp [*]
  · split
    · next eq => simp [eq]
    · next not_lt ne =>
        have : b.mantissaAt a.scale < a.mantissaAt b.scale := by omega
        simp [this]

/-! ## Shortest writing -/

/-- Dropping zeros changes nothing about the number. -/
theorem cast_dropZeros (mantissa scale : ℕ) :
    ((dropZeros mantissa scale).1 : ℚ) / 10 ^ ((dropZeros mantissa scale).2 : ℤ) =
      mantissa / 10 ^ (scale : ℤ) := by
  induction scale generalizing mantissa with
  | zero => rfl
  | succ scale ih =>
      rw [dropZeros]
      split
      · next ends =>
          have whole : (mantissa : ℚ) = (mantissa / 10 : ℕ) * 10 := by
            exact_mod_cast (Nat.div_mul_cancel (Nat.dvd_of_mod_eq_zero ends)).symm
          rw [ih, whole, Nat.cast_succ, zpow_add₀ (by norm_num), zpow_one,
            mul_div_mul_right _ _ (by norm_num)]
      · rfl

/-- The shortest writing denotes the same number. -/
@[simp] theorem toRat_normalize (d : Decimal) : d.normalize.toRat = d.toRat := by
  rw [normalize]
  split
  · next zero => rw [toRat_zero, toRat_eq_zero zero]
  · rw [toRat_eq, toRat_eq, cast_dropZeros]

/-! ## Storage -/

/-- A decimal has at most twenty-eight places that count. -/
theorem exists_mantissa (d : Decimal) :
    ∃ (places : ℕ) (n : ℤ), places ≤ maxPlaces ∧ d.toRat * 10 ^ (places : ℤ) = n ∧
      |n| < mantissaLimit := by
  have cancel : d.toRat * 10 ^ (d.scale : ℤ) = d.signedMantissa := by
    simpa [mantissaAt, tenTo] using (d.cast_mantissaAt 0).symm
  have bound : |d.signedMantissa| = d.mantissa := by
    rw [signedMantissa]
    split <;> simp
  have room := d.mantissa_lt
  rcases le_total d.scale maxPlaces with le | behind
  · exact ⟨d.scale, d.signedMantissa, le, cancel, by rw [bound]; exact_mod_cast room⟩
  · -- Behind the last place there are only zeros, which are dropped.
    obtain ⟨rest, eq⟩ := d.dvd_mantissa
    have pos : (0 : ℚ) < 10 ^ ((d.scale - maxPlaces : ℕ) : ℤ) := by positivity
    refine ⟨maxPlaces, if d.negative then -rest else rest, le_rfl, ?_, ?_⟩
    · have scale : (d.scale : ℤ) = (maxPlaces : ℕ) + (d.scale - maxPlaces : ℕ) := by omega
      rw [scale, zpow_add₀ (by norm_num), ← mul_assoc, cast_signedMantissa, eq, Nat.cast_mul,
        cast_tenTo, mul_comm (10 ^ _) (rest : ℚ), signed_mul] at cancel
      rw [mul_right_cancel₀ pos.ne' cancel]
      cases d.negative <;> simp
    · have le : rest ≤ d.mantissa := by
        rw [eq]
        exact Nat.le_mul_of_pos_left rest (tenTo_pos _)
      have : |if d.negative then -(rest : ℤ) else rest| = rest := by
        split <;> simp
      rw [this]
      exact_mod_cast le.trans_lt room

/-- **A decimal is stored as it is.** -/
theorem stored_toRat (mode : RoundingMode) (d : Decimal) :
    mode.stored d.toRat maxPlaces = d.toRat := by
  obtain ⟨places, n, le, eq, room⟩ := d.exists_mantissa
  exact mode.stored_of_whole le eq room

end Decimal

end Tariff
