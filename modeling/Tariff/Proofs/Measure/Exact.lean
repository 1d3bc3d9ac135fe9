import Tariff.Proofs.Measure.Ratio

/-!
# Calculation without rounding

Numbers of few digits that are neither tiny nor huge go through a calculation as
they are: each step stores its exact result and finds no digit to drop.

## Main definitions

* `IsShort` — numbers of few digits, within bounds
* `Conversion.Shifts` — a conversion that only moves the point

## Main statements

* `IsShort.keep_eq` — a short number is kept as it is
* `Passes.exists_add`, `exists_multiply`, `exists_divide` — results that pass are not rounded
* `Conversion.toRat_apply_of_shifts`, `Conversion.exists_apply_of_shifts` — a conversion
  without rounding, and that it has room
* `MeasureUnit.shifts_pricePer`, `MeasureUnit.shifts_percentOf` — prices and
  taxes in percent are converted by moving the point

## Design notes

A watt hour has 3600 joules, and so the sides of a conversion between prices are
not powers of ten but 36 times such powers.  A value is multiplied by one before
it is divided by the other.  The product has two digits more than the value, for
which there is room, and in the quotient they cancel.
-/

namespace Tariff

/-! ## Short numbers -/

/-- **Short numbers** have at most some digits and are zero or of a size between
a hundred-millionth and a million millions. -/
def IsShort (digits : ℕ) (x : ℚ) : Prop :=
  (∃ n e : ℤ, x = n * 10 ^ e ∧ |n| < 10 ^ digits) ∧
    (x = 0 ∨ (10 : ℚ) ^ (-8 : ℤ) ≤ |x| ∧ (|x| : ℚ) ≤ 10 ^ (12 : ℤ))

variable {p : Precision} {x : ℚ}

/-- A number written with at most eight places and without too many digits is
short. -/
theorem isShort_of_places {digits : ℕ} (n places : ℕ) (positive : 1 ≤ n) (few : n < 10 ^ digits)
    (size : n ≤ 10 ^ 12) (within : places ≤ 8) (eq : x = n * 10 ^ (-(places : ℤ))) :
    IsShort digits x := by
  have power : (10 : ℚ) ^ (-8 : ℤ) ≤ 10 ^ (-(places : ℤ)) :=
    zpow_le_zpow_right₀ (by norm_num) (by omega)
  have atMostOne : (10 : ℚ) ^ (-(places : ℤ)) ≤ 1 :=
    zpow_le_one_of_nonpos₀ (by norm_num) (by omega)
  have lower : (1 : ℚ) ≤ n := by exact_mod_cast positive
  have upper : (n : ℚ) ≤ 10 ^ (12 : ℤ) := by exact_mod_cast size
  refine ⟨⟨n, -(places : ℤ), by rw [eq, Int.cast_natCast], by exact_mod_cast few⟩, .inr ?_⟩
  rw [eq, abs_of_nonneg (by positivity)]
  constructor
  · calc (10 : ℚ) ^ (-8 : ℤ) ≤ 10 ^ (-(places : ℤ)) := power
      _ ≤ n * 10 ^ (-(places : ℤ)) := le_mul_of_one_le_left (by positivity) lower
  · calc (n : ℚ) * 10 ^ (-(places : ℤ)) ≤ n := mul_le_of_le_one_right (by positivity) atMostOne
      _ ≤ 10 ^ (12 : ℤ) := upper

/-- **Numbers that pass** have at most some digits, none of them far behind the
point, and are not too large. -/
def Passes (digits : ℕ) (x : ℚ) : Prop :=
  ∃ n e : ℤ, x = n * 10 ^ e ∧ |n| < 10 ^ digits ∧ -23 ≤ e ∧ (|x| : ℚ) ≤ 10 ^ (14 : ℤ)

/-- The last digit of a short number stands at one of the first places. -/
theorem IsShort.exists_digits {digits : ℕ} (short : IsShort digits x) (few : digits ≤ 16) :
    ∃ n e : ℤ, x = n * 10 ^ e ∧ |n| < 10 ^ digits ∧ -23 ≤ e ∧ (|x| : ℚ) ≤ 10 ^ (12 : ℤ) := by
  obtain ⟨⟨n, e, eq, digitsOf⟩, rfl | ⟨lower, upper⟩⟩ := short
  · exact ⟨0, 0, by simp, by simp, by omega, by simp⟩
  · refine ⟨n, e, eq, digitsOf, ?_, upper⟩
    have power : (0 : ℚ) < 10 ^ e := by positivity
    have mantissa : |(n : ℚ)| < 10 ^ (16 : ℤ) := by
      have bound : |n| < 10 ^ 16 := digitsOf.trans_le (pow_le_pow_right₀ (by decide) few)
      exact_mod_cast bound
    have small : (10 : ℚ) ^ (-8 : ℤ) < 10 ^ (16 + e) := by
      calc (10 : ℚ) ^ (-8 : ℤ) ≤ |x| := lower
        _ = |(n : ℚ)| * 10 ^ e := by rw [eq, abs_mul, abs_of_pos power]
        _ < 10 ^ (16 : ℤ) * 10 ^ e := mul_lt_mul_of_pos_right mantissa power
        _ = 10 ^ (16 + e) := (zpow_add₀ (by norm_num) _ _).symm
    have exponents := (zpow_lt_zpow_iff_right₀ (by norm_num : (1 : ℚ) < 10)).mp small
    omega

/-- Short numbers pass. -/
theorem IsShort.passes {digits : ℕ} (short : IsShort digits x) (few : digits ≤ 16) :
    Passes digits x := by
  obtain ⟨n, e, eq, digitsOf, place, size⟩ := short.exists_digits few
  exact ⟨n, e, eq, digitsOf, place, size.trans (by norm_num)⟩

/-- So do their hundredfolds. -/
theorem IsShort.passes_hundredfold {digits : ℕ} (short : IsShort digits (x * 10 ^ (-2 : ℤ)))
    (few : digits ≤ 16) : Passes digits x := by
  obtain ⟨n, e, eq, digitsOf, place, size⟩ := short.exists_digits few
  have hundredfold : x = x * 10 ^ (-2 : ℤ) * 10 ^ (2 : ℤ) := by
    rw [mul_assoc, ← zpow_add₀ (by norm_num), neg_add_cancel, zpow_zero, mul_one]
  refine ⟨n, e + 2, ?_, digitsOf, by omega, ?_⟩
  · rw [hundredfold, eq, zpow_add₀ (by norm_num), mul_assoc]
  · rw [hundredfold, abs_mul, abs_of_pos (by positivity : (0 : ℚ) < 10 ^ (2 : ℤ))]
    calc |x * 10 ^ (-2 : ℤ)| * (10 : ℚ) ^ (2 : ℤ) ≤ 10 ^ (12 : ℤ) * 10 ^ (2 : ℤ) :=
          mul_le_mul_of_nonneg_right size (by positivity)
      _ = 10 ^ (14 : ℤ) := by norm_num

/-- Numbers that pass are stored as they are in any mode, also when they are
multiplied by one side of a conversion. -/
theorem Passes.stored_eq {digits : ℕ} (passes : Passes digits x) (few : digits ≤ 16)
    (mode : RoundingMode) (factor : ℤ) {a : ℤ} (small : 1 ≤ factor ∧ factor ≤ 36)
    (shift : -2 ≤ a ∧ a ≤ 11) :
    mode.stored (x * (factor * 10 ^ a)) maxPlaces = x * (factor * 10 ^ a) := by
  obtain ⟨n, e, eq, digitsOf, place, -⟩ := passes
  have limit : (mantissaLimit : ℤ) = 79228162514264337593543950336 := rfl
  have bound : |n| < 10 ^ 16 := digitsOf.trans_le (pow_le_pow_right₀ (by decide) few)
  have written : x * (factor * 10 ^ a) = (n * factor : ℤ) * 10 ^ (e + a) := by
    rw [eq, zpow_add₀ (by norm_num), Int.cast_mul]
    ring
  refine mode.stored_of_digits written ?_ ?_
  · have places : (maxPlaces : ℤ) = 28 := rfl
    omega
  · rw [limit, abs_mul, abs_of_nonneg (by omega : 0 ≤ factor)]
    calc |n| * factor ≤ |n| * 36 := mul_le_mul_of_nonneg_left small.2 (abs_nonneg n)
      _ < 79228162514264337593543950336 := by omega

/-- **Numbers that pass are kept as they are**, whatever the mode in which they
were stored. -/
theorem Passes.toDigits_eq (passes : Passes p.digits x) (few : p.digits ≤ 16)
    (mode : RoundingMode) : p.mode.toDigits p.digits (mode.stored x maxPlaces) = x := by
  have stored := passes.stored_eq few mode 1 (a := 0) (by omega) (by omega)
  rw [Int.cast_one, zpow_zero, mul_one, mul_one] at stored
  obtain ⟨n, e, eq, digitsOf, -, -⟩ := passes
  rw [stored, eq]
  exact p.mode.toDigits_of_digits digitsOf

theorem Passes.keep_eq (passes : Passes p.digits x) (few : p.digits ≤ 16) : p.keep x = x :=
  passes.toDigits_eq few .halfEven

theorem IsShort.keep_eq (short : IsShort p.digits x) (few : p.digits ≤ 16) : p.keep x = x :=
  (short.passes few).keep_eq few

/-- More digits can be allowed. -/
theorem IsShort.mono {few many : ℕ} (short : IsShort few x) (le : few ≤ many) : IsShort many x := by
  obtain ⟨⟨n, e, eq, digitsOf⟩, size⟩ := short
  exact ⟨⟨n, e, eq, digitsOf.trans_le (pow_le_pow_right₀ (by decide) le)⟩, size⟩

/-- Numbers far below the bound of a mantissa have room. -/
theorem fits_of_le {mode : RoundingMode} (small : |x| ≤ 10 ^ 28) : mode.fits x 0 := by
  have le : |x * 10 ^ ((0 : ℕ) : ℤ)| ≤ ((10 ^ 28 : ℤ) : ℚ) := by
    rw [Nat.cast_zero, zpow_zero, mul_one]
    exact_mod_cast small
  exact (mode.abs_whole_le le).trans_lt (by decide)

/-! ## Results that pass

An operation whose exact result passes has room for it, and the result is kept as it is. -/

namespace Passes

variable {a b d : Decimal} {mode : RoundingMode}

theorem abs_le {digits : ℕ} (passes : Passes digits x) : |x| ≤ 10 ^ (14 : ℤ) := by
  obtain ⟨_, _, -, -, -, size⟩ := passes
  exact size

theorem hasDigits {digits : ℕ} (passes : Passes digits x) : HasDigits digits x := by
  obtain ⟨n, e, eq, few, -, -⟩ := passes
  exact ⟨n, e, eq, few⟩

theorem onGrid {digits : ℕ} (passes : Passes digits x) : OnGrid (-23) x := by
  obtain ⟨n, e, eq, -, place, -⟩ := passes
  exact OnGrid.mono ⟨n, eq⟩ place

/-- Numbers that pass have room. -/
theorem fits {digits : ℕ} (passes : Passes digits x) : mode.fits x 0 :=
  fits_of_le (passes.abs_le.trans (by norm_num))

/-- What was stored of a number that passes is rounded to that number. -/
theorem exists_round (passes : Passes p.digits x) (few : p.digits ≤ 16)
    (stored : d.toRat = mode.stored x maxPlaces) : ∃ c, p.round d = .ok c ∧ c.toRat = x := by
  have rounded : p.mode.toDigits p.digits d.toRat = x := by rw [stored, passes.toDigits_eq few]
  have room : |p.mode.toDigits p.digits d.toRat| < mantissaLimit := by
    rw [rounded]
    exact passes.abs_le.trans_lt (by norm_num [mantissaLimit])
  obtain ⟨c, hc⟩ := Option.isSome_iff_exists.mp
    ((Decimal.roundSignificant?_isSome_iff p.digits_le).mpr room)
  have h : p.round d = .ok c := Outcome.orOverflow_eq_ok.mpr hc
  exact ⟨c, h, (Precision.toRat_round h).trans rounded⟩

/-- **A sum that passes** is not rounded. -/
theorem exists_add (passes : Passes p.digits (a.toRat + b.toRat)) (few : p.digits ≤ 16) :
    ∃ c, p.add a b = .ok c ∧ c.toRat = a.toRat + b.toRat := by
  obtain ⟨sum, hsum⟩ := Option.isSome_iff_exists.mp (Decimal.add?_isSome_iff.mpr passes.fits)
  obtain ⟨c, hc, value⟩ := passes.exists_round few (Decimal.toRat_add? hsum)
  exact ⟨c, Outcome.bind_eq_ok.mpr ⟨sum, Outcome.orOverflow_eq_ok.mpr hsum, hc⟩, value⟩

/-- **A product that passes** is not rounded. -/
theorem exists_multiply (passes : Passes p.digits (a.toRat * b.toRat)) (few : p.digits ≤ 16) :
    ∃ c, p.multiply a b = .ok c ∧ c.toRat = a.toRat * b.toRat := by
  obtain ⟨product, hproduct⟩ :=
    Option.isSome_iff_exists.mp (Decimal.multiply?_isSome_iff.mpr passes.fits)
  obtain ⟨c, hc, value⟩ := passes.exists_round few (Decimal.toRat_multiply? hproduct)
  exact ⟨c, Outcome.bind_eq_ok.mpr ⟨product, Outcome.orOverflow_eq_ok.mpr hproduct, hc⟩, value⟩

/-- **A quotient that passes** is not rounded, whatever the mode in which it is stored. -/
theorem exists_divide (passes : Passes p.digits (a.toRat / b.toRat)) (few : p.digits ≤ 16)
    (nonzero : b.toRat ≠ 0) : ∃ c, p.divide a b = .ok c ∧ c.toRat = a.toRat / b.toRat := by
  rw [Ne, ← Decimal.isZero_iff] at nonzero
  obtain ⟨quotient, hquotient⟩ :=
    Option.isSome_iff_exists.mp ((Decimal.divide?_isSome_iff nonzero).mpr passes.fits)
  obtain ⟨c, hc, value⟩ := passes.exists_round few (Decimal.toRat_divide? nonzero hquotient)
  refine ⟨c, ?_, value⟩
  rw [Precision.divide, if_neg nonzero]
  exact Outcome.bind_eq_ok.mpr ⟨quotient, Outcome.orOverflow_eq_ok.mpr hquotient, hc⟩

end Passes

/-! ## Conversions that move the point -/

namespace Conversion

/-- **A conversion that moves the point** is the identity, or both of its sides
are 36 times a power of ten. -/
def Shifts (c : Conversion) (shift : ℤ) : Prop :=
  (c.isIdentity = true ∧ shift = 0) ∨
    ∃ a b : ℤ, (-2 ≤ a ∧ a ≤ 11) ∧ c.numerator.toRat = 36 * 10 ^ a ∧
      c.denominator.toRat = 36 * 10 ^ b ∧ shift = a - b

theorem shifts_identity : identity.Shifts 0 :=
  .inl ⟨by decide, rfl⟩

/-- Sides of one value have one power of ten. -/
theorem exponent_eq_of_sides {a b : ℤ} (eq : (36 : ℚ) * 10 ^ a = 36 * 10 ^ b) : a = b := by
  have powers := mul_left_cancel₀ (by norm_num : (36 : ℚ) ≠ 0) eq
  exact zpow_right_injective₀ (by norm_num) (by norm_num) powers

/-- What stands on both sides cancels in the quotient. -/
theorem quotient_of_sides {c : Conversion} {a b : ℤ} {value scaled : Decimal} (few : p.digits ≤ 16)
    (before : Passes p.digits value.toRat) (range : -2 ≤ a ∧ a ≤ 11)
    (numerator : c.numerator.toRat = 36 * 10 ^ a) (denominator : c.denominator.toRat = 36 * 10 ^ b)
    (h : value.multiply? c.numerator = some scaled) :
    scaled.toRat / c.denominator.toRat = value.toRat * 10 ^ (a - b) := by
  have product : scaled.toRat = value.toRat * (36 * 10 ^ a) := by
    rw [Decimal.toRat_multiply? h, numerator]
    exact before.stored_eq few .halfEven 36 (by omega) range
  rw [product, denominator, zpow_sub₀ (by norm_num)]
  field_simp

/-- **A conversion without rounding.** -/
theorem toRat_apply_of_shifts {c : Conversion} {shift : ℤ} {value result : Decimal}
    (shifts : c.Shifts shift) (few : p.digits ≤ 16) (before : Passes p.digits value.toRat)
    (after : Passes p.digits (value.toRat * 10 ^ shift)) (h : c.apply p value = .ok result) :
    result.toRat = value.toRat * 10 ^ shift := by
  rcases apply_eq_ok h with ⟨identity, rfl⟩ | ⟨different, scaled, hscaled, divided⟩
  · have none : shift = 0 := by
      rcases shifts with ⟨-, none⟩ | ⟨a, b, -, numerator, denominator, rfl⟩
      · exact none
      · rw [isIdentity, Decimal.sameValue_iff, numerator, denominator] at identity
        rw [exponent_eq_of_sides identity, sub_self]
    rw [none, zpow_zero, mul_one]
  · rcases shifts with ⟨identity, -⟩ | ⟨a, b, range, numerator, denominator, rfl⟩
    · exact absurd identity different
    · rw [Precision.toRat_divide_by divided,
        quotient_of_sides few before range numerator denominator hscaled]
      exact after.toDigits_eq few _

/-- A conversion that changes something multiplies first and then divides. -/
theorem apply_of_steps {c : Conversion} {value scaled result : Decimal}
    (different : ¬ c.isIdentity = true) (nonzero : c.denominator.toRat ≠ 0)
    (multiplied : value.multiply? c.numerator = some scaled)
    (divided : p.divide scaled c.denominator = .ok result) : c.apply p value = .ok result := by
  rw [apply, if_neg different, if_neg (mt c.denominator.isZero_iff.mp nonzero)]
  exact Outcome.bind_eq_ok.mpr ⟨scaled, Outcome.orOverflow_eq_ok.mpr multiplied, divided⟩

/-- A conversion that moves the point has room. -/
theorem exists_apply_of_shifts {c : Conversion} {shift : ℤ} {value : Decimal} (shifts : c.Shifts shift)
    (few : p.digits ≤ 16) (before : Passes p.digits value.toRat)
    (after : Passes p.digits (value.toRat * 10 ^ shift)) : ∃ result, c.apply p value = .ok result := by
  rcases shifts with ⟨identity, -⟩ | ⟨a, b, range, numerator, denominator, rfl⟩
  · exact ⟨value, by rw [apply, if_pos identity]⟩
  by_cases identity : c.isIdentity = true
  · exact ⟨value, by rw [apply, if_pos identity]⟩
  have nonzero : c.denominator.toRat ≠ 0 := by
    rw [denominator]
    positivity
  have side : |c.numerator.toRat| ≤ 36 * 10 ^ (11 : ℤ) := by
    rw [numerator, abs_of_pos (by positivity)]
    exact mul_le_mul_of_nonneg_left (zpow_le_zpow_right₀ (by norm_num) range.2) (by norm_num)
  have room : |value.toRat * c.numerator.toRat| ≤ 10 ^ 28 := by
    rw [abs_mul]
    exact (mul_le_mul before.abs_le side (abs_nonneg _) (by positivity)).trans (by norm_num)
  obtain ⟨scaled, hscaled⟩ := Option.isSome_iff_exists.mp
    (Decimal.multiply?_isSome_iff.mpr (fits_of_le room))
  rw [← quotient_of_sides few before range numerator denominator hscaled] at after
  obtain ⟨result, divided, -⟩ := after.exists_divide few nonzero
  exact ⟨result, apply_of_steps identity nonzero hscaled divided⟩

/-- A fraction of two such sides moves the point. -/
theorem shifts_ofFraction {numerator denominator : Decimal} {a b : ℤ} (range : -2 ≤ a ∧ a ≤ 11)
    (hn : numerator.toRat = 36 * 10 ^ a) (hd : denominator.toRat = 36 * 10 ^ b) :
    (ofFraction numerator denominator).Shifts (a - b) := by
  unfold ofFraction
  split
  · next same =>
      rw [Decimal.sameValue_iff, hn, hd] at same
      rw [exponent_eq_of_sides same, sub_self]
      exact shifts_identity
  · exact .inr ⟨a, b, range, hn, hd, rfl⟩

end Conversion

/-! ## Prices and taxes -/

namespace MeasureUnit

/-- The watt hour and its multiples. -/
def wattHours : List MeasureUnit :=
  [wattHour, kilowattHour, megawattHour, gigawattHour]

theorem mem_energyUnits {energy : MeasureUnit} (h : energy ∈ wattHours) : energy ∈ energyUnits :=
  List.mem_cons_of_mem _ h

/-- Watt hours have 36 times a power of ten of joules. -/
theorem wattHours_facts {energy : MeasureUnit} (h : energy ∈ wattHours) :
    ∃ n : ℤ, (2 ≤ n ∧ n ≤ 11) ∧ energy.ratio = 36 * 10 ^ n ∧
      ∀ factor, energy.reduce? = some ⟨factor, .one, [("J", 1)]⟩ → factor.toRat = 36 * 10 ^ n := by
  -- each unit is a thousand times the one before it
  have digits : ∀ (zeros : ℕ), 36 * 10 ^ zeros < mantissaLimit →
      (Decimal.ofDigits (36 * 10 ^ zeros) 0).toRat = 36 * 10 ^ (zeros : ℤ) := by
    intro zeros room
    rw [Decimal.toRat_ofDigits room (Nat.zero_le _)]
    simp
  have factors : ∀ {unit : MeasureUnit} (zeros : ℕ), 36 * 10 ^ zeros < mantissaLimit →
      unit.reduce? = some ⟨.ofDigits (36 * 10 ^ zeros) 0, .one, [("J", 1)]⟩ →
        ∀ factor, unit.reduce? = some ⟨factor, .one, [("J", 1)]⟩ →
          factor.toRat = 36 * 10 ^ (zeros : ℤ) := by
    intro unit zeros room reduced factor other
    rw [reduced] at other
    rw [← (Reduction.mk.inj (Option.some.inj other)).1, digits zeros room]
  have thousand : (Decimal.ofDigits 1000 0).toRat = 1000 := by
    rw [Decimal.toRat_ofDigits (by decide) (by decide)]
    norm_num
  have wattHourRatio : wattHour.ratio = 3600 := by
    rw [wattHour, joule, ratio, ratio, Decimal.toRat_ofDigits (by decide) (by decide)]
    norm_num
  simp only [wattHours, List.mem_cons, List.not_mem_nil, or_false] at h
  rcases h with rfl | rfl | rfl | rfl
  · refine ⟨2, by omega, ?_, factors 2 (by decide) rfl⟩
    rw [wattHourRatio]
    norm_num
  · refine ⟨5, by omega, ?_, factors 5 (by decide) rfl⟩
    rw [kilowattHour, ratio, thousand, wattHourRatio]
    norm_num
  · refine ⟨8, by omega, ?_, factors 8 (by decide) rfl⟩
    rw [megawattHour, ratio, kilowattHour, ratio, thousand, wattHourRatio]
    norm_num
  · refine ⟨11, by omega, ?_, factors 11 (by decide) rfl⟩
    rw [gigawattHour, ratio, megawattHour, ratio, kilowattHour, ratio, thousand, wattHourRatio]
    norm_num

/-- Money is a power of ten of its currency. -/
theorem moneyFactor_facts (hundredth : Bool) :
    ∃ u : ℤ, (-2 ≤ u ∧ u ≤ 0) ∧ (moneyFactor hundredth).toRat = 10 ^ u ∧
      (percentFactor hundredth).toRat = 10 ^ (u - 2) := by
  have part : ∀ places, places ≤ maxPlaces →
      (Decimal.ofDigits 1 places).toRat = 10 ^ (-(places : ℤ)) := by
    intro places within
    rw [Decimal.toRat_ofDigits (by decide) within, Nat.cast_one, one_mul]
  cases hundredth with
  | false => exact ⟨0, by omega, Decimal.toRat_one, part 2 (by decide)⟩
  | true => exact ⟨-2, by omega, part 2 (by decide), part 4 (by decide)⟩

/-- One side of a conversion: money of one unit times energy of the other. -/
theorem stored_side {money factor : ℚ} {u n : ℤ} (hmoney : money = 10 ^ u)
    (hfactor : factor = 36 * 10 ^ n) (hu : -4 ≤ u ∧ u ≤ 0) (hn : 2 ≤ n ∧ n ≤ 11) :
    RoundingMode.halfEven.stored (money * factor) maxPlaces = 36 * 10 ^ (u + n) := by
  have passes : Passes 1 ((10 : ℚ) ^ u) := by
    refine ⟨1, u, by simp, by decide, by omega, ?_⟩
    rw [abs_of_pos (by positivity)]
    exact zpow_le_zpow_right₀ (by norm_num) (by omega)
  have stored := passes.stored_eq (by omega) .halfEven 36 (by omega)
    (a := n) (by omega)
  rw [hmoney, hfactor]
  refine stored.trans ?_
  rw [zpow_add₀ (by norm_num)]
  push_cast
  ring

variable {code other : String} {hundredth part : Bool} {source target : MeasureUnit}
  {conversion : Conversion}

/-- **Prices are converted by moving the point.** -/
theorem shifts_pricePer (hs : source ∈ wattHours) (ht : target ∈ wattHours)
    (h : (pricePer code hundredth source).conversionTo (pricePer other part target) =
      .ok conversion) :
    ∃ shift, conversion.Shifts shift ∧
      (pricePer code hundredth source).ratio / (pricePer other part target).ratio = 10 ^ shift := by
  obtain ⟨n, hn, sourceRatio, sourceFactors⟩ := wattHours_facts hs
  obtain ⟨k, hk, targetRatio, targetFactors⟩ := wattHours_facts ht
  obtain ⟨u, hu, sourceMoney, -⟩ := moneyFactor_facts hundredth
  obtain ⟨v, hv, targetMoney, -⟩ := moneyFactor_facts part
  have ratios : (pricePer code hundredth source).ratio / (pricePer other part target).ratio =
      10 ^ (u + k - (v + n)) := by
    rw [ratio_pricePer code hundredth (mem_energyUnits hs),
      ratio_pricePer other part (mem_energyUnits ht), sourceMoney, targetMoney, sourceRatio,
      targetRatio, zpow_sub₀ (by norm_num), zpow_add₀ (by norm_num), zpow_add₀ (by norm_num)]
    field_simp
  rcases conversionTo_pricePer (mem_energyUnits hs) (mem_energyUnits ht) h with
    ⟨same, rfl⟩ | ⟨sourceFactor, -, targetFactor, -, hsource, htarget, numerator, denominator,
      hnumerator, hdenominator, rfl⟩
  · refine ⟨0, Conversion.shifts_identity, ?_⟩
    rw [ratio_eq_of_same _ _ same, div_self, zpow_zero]
    rw [ratio_pricePer other part (mem_energyUnits ht), targetMoney, targetRatio]
    positivity
  · refine ⟨_, Conversion.shifts_ofFraction (a := u + k) (b := v + n) (by omega) ?_ ?_, ratios⟩
    · rw [Decimal.toRat_multiply? hnumerator]
      exact stored_side sourceMoney (targetFactors _ htarget) (by omega) hk
    · rw [Decimal.toRat_multiply? hdenominator, mul_comm]
      exact stored_side targetMoney (sourceFactors _ hsource) (by omega) hn

/-- **Taxes in percent** are converted by moving the point by two places. -/
theorem shifts_percentOf (hs : source ∈ wattHours)
    (h : (percentOf code hundredth source).conversionTo (pricePer code hundredth source) =
      .ok conversion) : conversion.Shifts (-2) := by
  obtain ⟨n, hn, -, factors⟩ := wattHours_facts hs
  obtain ⟨u, hu, money, percentage⟩ := moneyFactor_facts hundredth
  obtain ⟨factor, -, reduced, numerator, denominator, hnumerator, hdenominator, rfl⟩ :=
    conversionTo_percentOf (mem_energyUnits hs) h
  have shift : -2 = u - 2 + n - (u + n) := by omega
  rw [shift]
  refine Conversion.shifts_ofFraction (by omega) ?_ ?_
  · rw [Decimal.toRat_multiply? hnumerator]
    exact stored_side percentage (factors _ reduced) (by omega) hn
  · rw [Decimal.toRat_multiply? hdenominator, mul_comm]
    exact stored_side money (factors _ reduced) (by omega) hn

theorem ratio_percent : percent.ratio = 10 ^ (-2 : ℤ) := by
  rw [percent, ratio, ratio_one, Decimal.toRat_ofDigits (by decide) (by decide)]
  norm_num

/-- **Taxes** in percent or at a plain rate are converted by as many places as
the rate has in front of its fraction. -/
theorem shifts_tax {rate : MeasureUnit} (hs : source ∈ wattHours)
    (plain : rate = percent ∨ rate = one)
    (h : ((pricePer code hundredth source).multiply rate).conversionTo
      (pricePer code hundredth source) = .ok conversion) :
    ∃ shift, conversion.Shifts shift ∧ rate.ratio = 10 ^ shift ∧ (shift = -2 ∨ shift = 0) := by
  rcases plain with rfl | rfl
  · rw [multiply_percent code hundredth (mem_energyUnits hs)] at h
    exact ⟨-2, shifts_percentOf hs h, ratio_percent, .inl rfl⟩
  · rw [multiply_one code hundredth (mem_energyUnits hs)] at h
    rw [Conversion.of_same (same_self _)] at h
    obtain rfl := Except.ok.inj h
    exact ⟨0, Conversion.shifts_identity, ratio_one, .inr rfl⟩

end MeasureUnit

end Tariff
