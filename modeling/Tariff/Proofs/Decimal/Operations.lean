import Tariff.Decimal.Arithmetic
import Tariff.Proofs.Decimal.Value
import Tariff.Proofs.Rounding.Digits

/-!
# Calculation with decimals on the numbers they denote

Each operation on decimals is the operation on rational numbers, stored.  These
are the only facts about the operations that later modules use.

## Main statements

* `Decimal.toRat_add?`, `Decimal.toRat_subtract?`, `Decimal.toRat_multiply?`,
  `Decimal.toRat_divide?` — a result denotes the exact result, stored
* `Decimal.quotientMode_of_le` — quotients of at most one are stored half-even

## Design notes

A sum or product is stored at a scale of its own, which depends on how the
operands are written.  Its number does not: at that scale nothing is left to
round, so that storing it at `maxPlaces` gives the same (`stored_of_le`).
-/

namespace Tariff.Decimal

/-! ## Storing a fraction -/

section Fit

variable {mode : RoundingMode} {negative : Bool} {dividend divisor : ℕ}

/-- The mantissa of a fraction at a scale. -/
theorem whole_fraction (mode : RoundingMode) (negative : Bool) (dividend : ℕ) {divisor : ℕ}
    (pos : 0 < divisor) (scale : ℕ) :
    (mode.whole (signed negative (dividend / divisor) * 10 ^ (scale : ℤ)) : ℚ) =
      signed negative (mode.quotient negative (dividend * tenTo scale) divisor) := by
  have taken : signed negative ((dividend : ℚ) / divisor) * 10 ^ (scale : ℤ) =
      signed negative ((dividend * tenTo scale : ℕ) / divisor) := by
    rw [← signed_mul, Nat.cast_mul, cast_tenTo, div_mul_eq_mul_div]
  rw [taken, mode.whole_signed negative _ pos]

theorem fits_fraction_iff (pos : 0 < divisor) (scale : ℕ) :
    mode.fits (signed negative (dividend / divisor)) scale ↔
      mode.quotient negative (dividend * tenTo scale) divisor < mantissaLimit := by
  have magnitude := congrArg (|·|) (whole_fraction mode negative dividend pos scale)
  simp only [abs_signed, Nat.abs_cast, ← Int.cast_abs] at magnitude
  have magnitude' : |mode.whole (signed negative ((dividend : ℚ) / divisor) *
      10 ^ (scale : ℤ))| = (mode.quotient negative (dividend * tenTo scale) divisor : ℕ) := by
    exact_mod_cast magnitude
  rw [RoundingMode.fits, magnitude', Int.ofNat_lt]

theorem toRat_of_fitAt? (pos : 0 < divisor) {scale : ℕ} {d : Decimal}
    (h : fitAt? mode negative dividend divisor scale = some d) :
    mode.fits (signed negative (dividend / divisor)) scale ∧
      d.toRat = mode.atPlaces scale (signed negative (dividend / divisor)) := by
  rw [fitAt?] at h
  have room := d.mantissa_lt
  rw [(ofParts?_eq_some_iff.mp h).2.1] at room
  refine ⟨(fits_fraction_iff pos scale).mpr room, ?_⟩
  rw [toRat_of_ofParts? h, RoundingMode.atPlaces, whole_fraction _ _ _ pos, ← signed_div]
  apply signed_congr
  intro ne
  have kept : mode.quotient negative (dividend * tenTo scale) divisor ≠ 0 := by
    rintro zero
    simp [zero] at ne
  rw [bne_iff_ne.mpr kept, Bool.and_true]

/-- A fraction that has room is stored there, if nothing but zeros stands behind
the last place. -/
theorem exists_fitAt? (pos : 0 < divisor) {scale : ℕ}
    (zeros : maxPlaces < scale →
      ∃ n : ℤ, signed negative ((dividend : ℚ) / divisor) * 10 ^ (maxPlaces : ℤ) = n)
    (room : mode.fits (signed negative (dividend / divisor)) scale) :
    ∃ d, fitAt? mode negative dividend divisor scale = some d := by
  rw [fits_fraction_iff pos] at room
  refine ⟨⟨_, _, scale, room, ?_⟩, ofParts?_eq_some_iff.mpr ⟨rfl, rfl, rfl⟩⟩
  rcases Nat.lt_or_ge maxPlaces scale with behind | within
  · obtain ⟨n, eq⟩ := zeros behind
    have mantissa := RoundingMode.whole_places behind.le eq
    have magnitude := whole_fraction mode negative dividend pos scale
    rw [mantissa, mode.whole_intCast] at magnitude
    have magnitude := congrArg (|·|) magnitude
    simp only [abs_signed, Nat.abs_cast, ← Int.cast_abs, abs_mul, abs_pow] at magnitude
    refine ⟨n.natAbs, ?_⟩
    zify
    rw [mul_comm ((tenTo (scale - maxPlaces) : ℕ) : ℤ), tenTo_eq (scale - maxPlaces)]
    exact_mod_cast magnitude.symm
  · rw [Nat.sub_eq_zero_of_le within]
    exact one_dvd _

/-- **A stored fraction.** -/
theorem toRat_of_fit? (pos : 0 < divisor) {scale : ℕ} {d : Decimal}
    (zeros : maxPlaces < scale →
      ∃ n : ℤ, signed negative ((dividend : ℚ) / divisor) * 10 ^ (maxPlaces : ℤ) = n)
    (h : fit? mode negative dividend divisor scale = some d) :
    d.toRat = mode.stored (signed negative (dividend / divisor)) scale := by
  induction scale with
  | zero => exact (toRat_of_fitAt? pos h).2
  | succ scale ih =>
      rw [RoundingMode.stored]
      rw [fit?] at h
      split at h
      · next hit =>
          obtain ⟨room, eq⟩ := toRat_of_fitAt? pos hit
          rw [if_pos room, ← Option.some.inj h, eq]
      · next miss =>
          have full : ¬ mode.fits (signed negative (dividend / divisor)) (scale + 1) := by
            intro room
            obtain ⟨e, hit⟩ := exists_fitAt? pos zeros room
            rw [hit] at miss
            cases miss
          rw [if_neg full]
          exact ih (fun behind => zeros (behind.trans scale.lt_succ_self)) h

end Fit

/-! ## Sums and products -/

/-- No decimal has more places than the last one. -/
theorem exists_whole (d : Decimal) : ∃ n : ℤ, d.toRat * 10 ^ (maxPlaces : ℤ) = n := by
  obtain ⟨places, n, le, eq, -⟩ := d.exists_mantissa
  exact ⟨_, RoundingMode.whole_places le eq⟩

theorem onGrid_toRat (d : Decimal) : OnGrid (-(maxPlaces : ℤ)) d.toRat := by
  obtain ⟨n, eq⟩ := d.exists_whole
  exact onGrid_of_whole eq

/-- At its own scale nothing of a number is left to round. -/
theorem stored_min {x : ℚ} {n : ℤ} {scale : ℕ} (eq : x * 10 ^ (scale : ℤ) = n)
    (mode : RoundingMode) : mode.stored x (min scale maxPlaces) = mode.stored x maxPlaces := by
  rcases le_total scale maxPlaces with within | behind
  · rw [min_eq_left within, mode.stored_of_le within eq]
  · rw [min_eq_right behind]

/-- The sum of two mantissas over their common scale. -/
theorem add_eq_signed (a b : Decimal) {scale : ℕ} (ha : a.scale ≤ scale) (hb : b.scale ≤ scale)
    {sum : ℤ} (eq : sum = a.mantissaAt (scale - a.scale) + b.mantissaAt (scale - b.scale)) :
    a.toRat + b.toRat = signed (decide (sum < 0)) (sum.natAbs / tenTo scale) ∧
      (a.toRat + b.toRat) * 10 ^ (scale : ℤ) = sum := by
  have pos : (0 : ℚ) < 10 ^ (scale : ℤ) := by positivity
  have total : (a.toRat + b.toRat) * 10 ^ (scale : ℤ) = sum := by
    rw [eq, Int.cast_add, cast_mantissaAt, cast_mantissaAt, Nat.add_sub_cancel' ha,
      Nat.add_sub_cancel' hb, add_mul]
  refine ⟨?_, total⟩
  rw [cast_tenTo, signed_div, eq_div_iff pos.ne', total, Nat.cast_natAbs, Int.cast_abs]
  rcases lt_or_ge sum 0 with neg | nonneg
  · rw [decide_eq_true neg, signed_true, abs_of_neg (by exact_mod_cast neg), neg_neg]
  · rw [decide_eq_false (not_lt.mpr nonneg), signed_false, abs_of_nonneg (by exact_mod_cast nonneg)]

/-- **Sum.** -/
theorem toRat_add? {a b c : Decimal} (h : a.add? b = some c) :
    c.toRat = RoundingMode.halfEven.stored (a.toRat + b.toRat) maxPlaces := by
  rw [add?] at h
  split at h
  · next zero =>
      rw [toRat_eq_zero zero, zero_add, stored_toRat, Option.some.inj h]
  · split at h
    · next zero =>
        rw [toRat_eq_zero zero, add_zero, stored_toRat, Option.some.inj h]
    · obtain ⟨value, whole⟩ := add_eq_signed a b (le_max_left _ _) (le_max_right _ _) rfl
      have zeros : ∃ n : ℤ, (a.toRat + b.toRat) * 10 ^ (maxPlaces : ℤ) = n := by
        obtain ⟨m, ha⟩ := a.exists_whole
        obtain ⟨n, hb⟩ := b.exists_whole
        exact ⟨m + n, by rw [add_mul, ha, hb, Int.cast_add]⟩
      have stored := toRat_of_fit? (tenTo_pos _) (fun _ => by rwa [← value]) h
      rw [← value] at stored
      rw [stored]
      split
      · -- Digits behind the last place are zeros and may be kept or left out.
        obtain ⟨n, eq⟩ := zeros
        rcases le_total (max a.scale b.scale) maxPlaces with within | behind
        · exact (RoundingMode.stored_of_le _ within whole).symm
        · exact RoundingMode.stored_of_le _ behind eq
      · exact stored_min whole _

/-- **Difference.** -/
theorem toRat_subtract? {a b c : Decimal} (h : a.subtract? b = some c) :
    c.toRat = RoundingMode.halfEven.stored (a.toRat - b.toRat) maxPlaces := by
  rw [toRat_add? h, toRat_negate, sub_eq_add_neg]

/-- The product of two mantissas over both scales. -/
theorem multiply_eq_signed (a b : Decimal) :
    a.toRat * b.toRat = signed (a.negative != b.negative)
      ((a.mantissa * b.mantissa : ℕ) / tenTo (a.scale + b.scale)) := by
  rw [toRat_eq, toRat_eq, signed_mul_signed, cast_tenTo, Nat.cast_mul, Nat.cast_add,
    zpow_add₀ (by norm_num), div_mul_div_comm]

/-- **Product.** -/
theorem toRat_multiply? {a b c : Decimal} (h : a.multiply? b = some c) :
    c.toRat = RoundingMode.halfEven.stored (a.toRat * b.toRat) maxPlaces := by
  rw [multiply?] at h
  split at h
  · next zero =>
      have factor : a.toRat = 0 ∨ b.toRat = 0 := by
        rw [Bool.or_eq_true] at zero
        exact zero.imp toRat_eq_zero toRat_eq_zero
      rw [← Option.some.inj h, mul_eq_zero.mpr factor, RoundingMode.stored_zero, toRat_zero]
  · have value := multiply_eq_signed a b
    have whole : ∃ n : ℤ, a.toRat * b.toRat * 10 ^ ((a.scale + b.scale : ℕ) : ℤ) = n := by
      have pos : (10 : ℚ) ^ ((a.scale + b.scale : ℕ) : ℤ) ≠ 0 := by positivity
      refine ⟨if a.negative != b.negative then -(a.mantissa * b.mantissa) else
        a.mantissa * b.mantissa, ?_⟩
      rw [value, signed_div, cast_tenTo, div_mul_cancel₀ _ pos]
      cases a.negative != b.negative <;> simp
    obtain ⟨n, eq⟩ := whole
    have within : ¬ maxPlaces < min (a.scale + b.scale) maxPlaces :=
      not_lt.mpr (min_le_right _ _)
    have stored := toRat_of_fit? (tenTo_pos _) (fun behind => absurd behind within) h
    rw [← value, stored_min eq] at stored
    exact stored

/-- Products of numbers that are not negative are not negative. -/
theorem multiply?_nonneg {a b c : Decimal} (ha : 0 ≤ a.toRat) (hb : 0 ≤ b.toRat)
    (h : a.multiply? b = some c) : 0 ≤ c.toRat := by
  rw [toRat_multiply? h]
  exact RoundingMode.stored_nonneg rfl maxPlaces (mul_nonneg ha hb)

/-! ## Quotients -/

/-- The quotient of two mantissas, each with the power of ten of the other. -/
theorem divide_eq_signed (a b : Decimal) :
    a.toRat / b.toRat = signed (a.negative != b.negative)
      ((a.mantissa * tenTo b.scale : ℕ) / (b.mantissa * tenTo a.scale : ℕ)) := by
  rw [toRat_eq, toRat_eq, signed_div_signed, Nat.cast_mul, Nat.cast_mul, cast_tenTo,
    cast_tenTo, div_div_div_eq, mul_comm (b.mantissa : ℚ)]

/-- **Quotient.** -/
theorem toRat_divide? {a b c : Decimal} (nonzero : ¬ b.isZero = true) (h : a.divide? b = some c) :
    c.toRat = (quotientMode a b).stored (a.toRat / b.toRat) maxPlaces := by
  rw [divide?] at h
  split at h
  · next zero =>
      rw [← Option.some.inj h, toRat_eq_zero zero, zero_div, RoundingMode.stored_zero, toRat_zero]
  · have mantissa : 0 < b.mantissa := by
      rw [isZero, beq_iff_eq] at nonzero
      omega
    have stored := toRat_of_fit? (Nat.mul_pos mantissa (tenTo_pos _))
      (fun behind => absurd behind (lt_irrefl _)) h
    rwa [← divide_eq_signed a b] at stored

/-- However a quotient is rounded, it is rounded to a nearest mantissa. -/
theorem isNearest_quotientMode (a b : Decimal) : (quotientMode a b).isNearest = true := by
  rw [quotientMode]
  split <;> rfl

/-! ## Quotients that do not overrun -/

theorem roomBehind_le (digits most : ℕ) : roomBehind digits most ≤ most := by
  induction most with
  | zero => exact Nat.le_refl 0
  | succ most ih =>
      rw [roomBehind]
      split
      · exact le_rfl
      · exact ih.trans (Nat.le_succ most)

/-- Digits that have room all together overrun in no block. -/
theorem overruns_eq_false {dividend divisor blocks present free : ℕ}
    (room : dividend * tenTo (present + free) / divisor < mantissaLimit) :
    overruns dividend divisor blocks present free = false := by
  induction blocks generalizing present free with
  | zero => rfl
  | succ blocks ih =>
      rw [overruns]
      generalize hblock : roomBehind (dividend * tenTo present / divisor) (min 9 free) = block
      have within : block ≤ free := by
        rw [← hblock]
        exact (roomBehind_le _ _).trans (min_le_right _ _)
      have rest : present + block + (free - block) = present + free := by omega
      have fewer : dividend * tenTo (present + block) / divisor < mantissaLimit := by
        refine lt_of_le_of_lt (Nat.div_le_div_right (Nat.mul_le_mul_left _ ?_)) room
        rw [tenTo_eq, tenTo_eq]
        exact Nat.pow_le_pow_right (by decide) (by omega)
      split
      · rfl
      · rw [if_neg (not_le.mpr fewer)]
        exact ih (rest ▸ room)

/-- A quotient that has room at the last place is rounded half-even. -/
theorem quotientMode_of_room {a b : Decimal} (positive : 0 < b.mantissa)
    (room : a.mantissa * tenTo (maxPlaces + b.scale) <
      mantissaLimit * (b.mantissa * tenTo a.scale)) : quotientMode a b = .halfEven := by
  have none : overruns a.mantissa b.mantissa (maxPlaces + b.scale - a.scale) 0
      (maxPlaces + b.scale - a.scale) = false := by
    rcases le_total (maxPlaces + b.scale) a.scale with beyond | within
    · rw [Nat.sub_eq_zero_of_le beyond, overruns]
    · apply overruns_eq_false
      rw [Nat.div_lt_iff_lt_mul positive]
      refine Nat.lt_of_mul_lt_mul_right (a := tenTo a.scale) ?_
      calc a.mantissa * tenTo (0 + (maxPlaces + b.scale - a.scale)) * tenTo a.scale
          = a.mantissa * tenTo (maxPlaces + b.scale) := by
            rw [Nat.zero_add, Nat.mul_assoc, ← tenTo_add, Nat.sub_add_cancel within]
        _ < mantissaLimit * (b.mantissa * tenTo a.scale) := room
        _ = mantissaLimit * b.mantissa * tenTo a.scale := (Nat.mul_assoc _ _ _).symm
  simp only [quotientMode, none, Bool.and_false, Bool.false_eq_true, if_false]

/-- A quotient of at most one has room for all its digits. -/
theorem quotientMode_of_le {a b : Decimal} (positive : 0 < b.mantissa)
    (le : a.mantissa * tenTo b.scale ≤ b.mantissa * tenTo a.scale) :
    quotientMode a b = .halfEven := by
  refine quotientMode_of_room positive ?_
  calc a.mantissa * tenTo (maxPlaces + b.scale)
      = tenTo maxPlaces * (a.mantissa * tenTo b.scale) := by
        rw [tenTo_add]
        ring
    _ ≤ tenTo maxPlaces * (b.mantissa * tenTo a.scale) := Nat.mul_le_mul_left _ le
    _ < mantissaLimit * (b.mantissa * tenTo a.scale) :=
        Nat.mul_lt_mul_of_pos_right (by decide) (Nat.mul_pos positive (tenTo_pos _))

end Tariff.Decimal
