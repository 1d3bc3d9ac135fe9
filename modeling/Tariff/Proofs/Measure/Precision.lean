import Tariff.Measure.Precision
import Tariff.Proofs.Decimal.Quotient
import Tariff.Proofs.Decimal.Room
import Tariff.Proofs.Outcome
import Tariff.Proofs.Rounding.Difference

/-!
# Calculation under a precision on numbers

A precision keeps of an exact result what can be stored, rounded to its digits.
All operations under it are the exact operation followed by this one function,
which keeps the order of numbers.

## Main definitions

* `Precision.keep` — what is kept of an exact result
* `Decimal.QuotientHalfEven` — a quotient that is stored half-even
* `Precision.DividesHalfEven` — a precision under which quotients are

## Main statements

* `Precision.toRat_add`, `toRat_subtract`, `toRat_multiply`, `toRat_divide` —
  the operations on numbers
* `Precision.keep_mono` — what is kept stands in the order of the results
* `Precision.keep_of_grid` — what is kept as it is
* `Precision.keep_pos` — what lies above zero is not lost
* `Precision.toDigits_quotient_eq`, `Precision.divide_mono` — quotients of one
  number, and the order of quotients

## Design notes

A quotient is stored half-even or, where its digits overrun the mantissa behind
a divisor of more than 64 bits, half-up.  The two differ in the middle between
two mantissas only, but there they do, and by more than the number at hand: the
same number written in two ways may be rounded both ways.  Whatever holds of all
quotients is stated with `quotientMode`.  The laws that need quotients to depend
on numbers alone ask for half-even division, and this is the one form in which
they do: `Precision.DividesHalfEven` of the quotients that a calculation takes, as
a set of dividends with their divisors.  It asks for something at 28 digits only;
fewer digits do not show how a quotient was stored.
-/

namespace Tariff

namespace Precision

/-- **What is kept of an exact result.** -/
def keep (p : Precision) (x : ℚ) : ℚ :=
  p.mode.toDigits p.digits (RoundingMode.halfEven.stored x maxPlaces)

/-- What is kept stands in the order of the exact results. -/
theorem keep_mono (p : Precision) : Monotone p.keep :=
  (p.mode.toDigits_mono p.digits_pos).comp (RoundingMode.stored_mono rfl maxPlaces)

@[simp] theorem keep_zero (p : Precision) : p.keep 0 = 0 := by
  rw [keep, RoundingMode.stored_zero, RoundingMode.toDigits_zero]

theorem keep_nonneg (p : Precision) {x : ℚ} (nonneg : 0 ≤ x) : 0 ≤ p.keep x :=
  p.keep_zero.symm.trans_le (p.keep_mono nonneg)

/-- **A multiple of a power of ten** that has no more digits than are kept is found again, in
whatever mode it was stored. -/
theorem toDigits_stored (p : Precision) (mode : RoundingMode) {x : ℚ} {e : ℤ} (grid : OnGrid e x)
    (within : -(maxPlaces : ℤ) ≤ e) (few : |x| < 10 ^ (e + p.digits)) :
    p.mode.toDigits p.digits (mode.stored x maxPlaces) = x := by
  have digits : (10 : ℚ) ^ (e + p.digits) ≤ mantissaLimit * 10 ^ e := by
    have power : (10 : ℚ) ^ (p.digits : ℤ) ≤ 10 ^ (28 : ℤ) :=
      zpow_le_zpow_right₀ (by norm_num) (by exact_mod_cast p.digits_le)
    have limit : (10 : ℚ) ^ (28 : ℤ) ≤ mantissaLimit := by norm_num [mantissaLimit]
    rw [add_comm, zpow_add₀ (by norm_num)]
    exact mul_le_mul_of_nonneg_right (power.trans limit) (by positivity)
  rw [RoundingMode.stored_of_grid _ grid within (few.trans_le digits)]
  exact p.mode.toDigits_of_hasDigits (grid.hasDigits few)

/-- **A multiple of a power of ten is kept as it is** when it has no more digits
than are kept. -/
theorem keep_of_grid (p : Precision) {x : ℚ} {e : ℤ} (grid : OnGrid e x)
    (within : -(maxPlaces : ℤ) ≤ e) (few : |x| < 10 ^ (e + p.digits)) : p.keep x = x :=
  p.toDigits_stored .halfEven grid within few

/-- A number of one digit is kept as it is. -/
theorem keep_digit (p : Precision) {n : ℤ} (small : |n| < 10) : p.keep n = n := by
  have digit : |(n : ℚ)| < 10 := by exact_mod_cast small
  refine p.keep_of_grid (e := 0) ⟨n, by simp⟩ (by decide) ?_
  have power : (10 : ℚ) ^ (1 : ℤ) ≤ 10 ^ (0 + p.digits : ℤ) :=
    zpow_le_zpow_right₀ (by norm_num) (by have := p.digits_pos; omega)
  exact digit.trans_le (by simpa using power)

/-- **What lies above zero is not lost**, unless it is smaller than any decimal. -/
theorem keep_pos (p : Precision) {x : ℚ} (grid : OnGrid (-(maxPlaces : ℤ)) x) (pos : 0 < x) :
    0 < p.keep x := by
  have step : (0 : ℚ) < 10 ^ (-(maxPlaces : ℤ)) := by positivity
  obtain ⟨n, rfl⟩ := grid
  have least : (10 : ℚ) ^ (-(maxPlaces : ℤ)) ≤ n * 10 ^ (-(maxPlaces : ℤ)) := by
    have positive : (1 : ℤ) ≤ n := by exact_mod_cast (mul_pos_iff_of_pos_right step).mp pos
    exact le_mul_of_one_le_left step.le (by exact_mod_cast positive)
  have stays : p.keep (10 ^ (-(maxPlaces : ℤ))) = 10 ^ (-(maxPlaces : ℤ)) := by
    refine p.keep_of_grid ⟨1, by simp⟩ le_rfl ?_
    rw [abs_of_pos step]
    exact zpow_lt_zpow_right₀ (by norm_num) (by have := p.digits_pos; omega)
  exact step.trans_le (stays.symm.trans_le (p.keep_mono least))

/-! ## The operations -/

variable {p : Precision} {a b c : Decimal}

theorem toRat_round (h : p.round a = .ok c) : c.toRat = p.mode.toDigits p.digits a.toRat :=
  Decimal.toRat_roundSignificant? (Outcome.orOverflow_eq_ok.mp h)

theorem toRat_add (h : p.add a b = .ok c) : c.toRat = p.keep (a.toRat + b.toRat) := by
  obtain ⟨sum, hsum, h⟩ := Outcome.bind_eq_ok.mp h
  rw [toRat_round h, Decimal.toRat_add? (Outcome.orOverflow_eq_ok.mp hsum), keep]

theorem toRat_subtract (h : p.subtract a b = .ok c) :
    c.toRat = p.keep (a.toRat - b.toRat) := by
  obtain ⟨difference, hdifference, h⟩ := Outcome.bind_eq_ok.mp h
  rw [toRat_round h, Decimal.toRat_subtract? (Outcome.orOverflow_eq_ok.mp hdifference), keep]

theorem toRat_multiply (h : p.multiply a b = .ok c) :
    c.toRat = p.keep (a.toRat * b.toRat) := by
  obtain ⟨product, hproduct, h⟩ := Outcome.bind_eq_ok.mp h
  rw [toRat_round h, Decimal.toRat_multiply? (Outcome.orOverflow_eq_ok.mp hproduct), keep]

/-- A quotient that exists has a divisor. -/
theorem isZero_of_divide (h : p.divide a b = .ok c) : ¬ b.isZero = true := by
  intro zero
  rw [divide, if_pos zero] at h
  cases h

theorem toRat_divide_by (h : p.divide a b = .ok c) :
    c.toRat = p.mode.toDigits p.digits
      ((Decimal.quotientMode a b).stored (a.toRat / b.toRat) maxPlaces) := by
  have nonzero := isZero_of_divide h
  rw [divide, if_neg nonzero] at h
  obtain ⟨quotient, hquotient, h⟩ := Outcome.bind_eq_ok.mp h
  rw [toRat_round h, Decimal.toRat_divide? nonzero (Outcome.orOverflow_eq_ok.mp hquotient)]

/-! ## Without rounding -/

/-- **A sum that has room** is calculated without rounding if it has no more digits
than are kept. -/
theorem exists_add {d : Decimal} (eq : a.toRat + b.toRat = d.toRat)
    (digits : HasDigits p.digits d.toRat) : ∃ c, p.add a b = .ok c ∧ c.toRat = d.toRat := by
  have fits : RoundingMode.halfEven.fits (a.toRat + b.toRat) 0 := eq ▸ d.fits_toRat _
  obtain ⟨sum, hsum⟩ := Option.isSome_iff_exists.mp (Decimal.add?_isSome_iff.mpr fits)
  have kept : p.mode.toDigits p.digits sum.toRat = d.toRat := by
    rw [Decimal.toRat_add? hsum, eq, Decimal.stored_toRat, p.mode.toDigits_of_hasDigits digits]
  have room : |p.mode.toDigits p.digits sum.toRat| < mantissaLimit := kept ▸ d.abs_toRat_lt
  obtain ⟨c, hc⟩ := Option.isSome_iff_exists.mp
    ((Decimal.roundSignificant?_isSome_iff p.digits_le).mpr room)
  have rounded : p.round sum = .ok c := Outcome.orOverflow_eq_ok.mpr hc
  exact ⟨c, Outcome.bind_eq_ok.mpr ⟨sum, Outcome.orOverflow_eq_ok.mpr hsum, rounded⟩,
    (toRat_round rounded).trans kept⟩

/-- **What is left of a number** beside its quotient by a divisor between one and two
is kept as it is. -/
theorem keep_sub_quotient (digits : HasDigits p.digits a.toRat) (one : 1 ≤ b.toRat)
    (two : b.toRat ≤ 2) (h : p.divide a b = .ok c) :
    p.keep (a.toRat - c.toRat) = a.toRat - c.toRat := by
  obtain ⟨e, within, grid, few⟩ := RoundingMode.exists_grid_sub_quotient
    (Decimal.isNearest_quotientMode a b) p.digits_pos p.digits_le digits a.onGrid_toRat
    (fun store => a.stored_toRat store) one two (toRat_divide_by h)
  exact p.keep_of_grid grid within few

end Precision

/-! ## Half-even quotients -/

/-- Whether a quotient is stored as half-even rounding stores it. -/
def Decimal.QuotientHalfEven (a b : Decimal) : Prop :=
  (quotientMode a b).stored (a.toRat / b.toRat) maxPlaces =
    RoundingMode.halfEven.stored (a.toRat / b.toRat) maxPlaces

/-- A divisor of at most 64 bits leaves no choice. -/
theorem Decimal.quotientHalfEven_of_lt (a : Decimal) {b : Decimal}
    (narrow : b.mantissa < wideFrom) : QuotientHalfEven a b := by
  rw [QuotientHalfEven, quotientMode_of_lt a narrow]

/-- Neither does a quotient of at most one. -/
theorem Decimal.quotientHalfEven_of_abs_le {a b : Decimal} (nonzero : b.toRat ≠ 0)
    (le : (|a.toRat| : ℚ) ≤ |b.toRat|) : QuotientHalfEven a b := by
  have positive : 0 < b.mantissa := by
    rw [Ne, ← isZero_iff, isZero, beq_iff_eq] at nonzero
    omega
  rw [abs_toRat, abs_toRat, div_le_div_iff₀ (by positivity) (by positivity), ← cast_tenTo,
    ← cast_tenTo] at le
  rw [QuotientHalfEven, quotientMode_of_le positive (by exact_mod_cast le)]

namespace Precision

/-- **Half-even division.**  Under a precision that keeps all digits, the given quotients are stored
as half-even rounding stores them.  Nothing is asked of a precision of at most 27 digits. -/
def DividesHalfEven (p : Precision) (quotients : Set (Decimal × Decimal)) : Prop :=
  27 < p.digits → ∀ a b, (a, b) ∈ quotients → Decimal.QuotientHalfEven a b

variable {p : Precision} {quotients : Set (Decimal × Decimal)} {a a' b c c' : Decimal}

/-- Divisors of at most 64 bits leave no choice. -/
theorem dividesHalfEven_of_lt (narrow : ∀ a b, (a, b) ∈ quotients → b.mantissa < Decimal.wideFrom) :
    p.DividesHalfEven quotients :=
  fun _ a b mem => Decimal.quotientHalfEven_of_lt a (narrow a b mem)

/-- Of fewer quotients less is asked. -/
theorem DividesHalfEven.mono {others : Set (Decimal × Decimal)}
    (even : p.DividesHalfEven quotients) (among : others ⊆ quotients) : p.DividesHalfEven others :=
  fun all a b mem => even all a b (among mem)

/-- A small sum of at most sixteen digits has at most 64 bits. -/
theorem mantissa_lt_of_add (few : p.digits ≤ 16) (h : p.add a b = .ok c)
    (small : |c.toRat| ≤ 10) : c.mantissa < Decimal.wideFrom := by
  obtain ⟨sum, -, rounded⟩ := Outcome.bind_eq_ok.mp h
  have digit : (10 : ℚ) ^ (1 : ℤ) ≤ 10 ^ (p.digits : ℤ) :=
    zpow_le_zpow_right₀ (by norm_num) (by exact_mod_cast p.digits_pos)
  have mantissa := Decimal.mantissa_le_of_roundSignificant? (Outcome.orOverflow_eq_ok.mp rounded)
    (small.trans (by simpa using digit))
  exact (mantissa.trans (Nat.pow_le_pow_right (by decide) few)).trans_lt (by decide)

theorem toRat_divide (even : Decimal.QuotientHalfEven a b) (h : p.divide a b = .ok c) :
    c.toRat = p.keep (a.toRat / b.toRat) := by
  rw [toRat_divide_by h, even, keep]

/-- **Quotients of one number**, however it is written, are rounded to one number. -/
theorem toDigits_quotient_eq (nonzero : ¬ b.isZero = true) (same : a.toRat = a'.toRat)
    (even : p.DividesHalfEven {(a, b), (a', b)}) :
    p.mode.toDigits p.digits ((Decimal.quotientMode a b).stored (a.toRat / b.toRat) maxPlaces) =
      p.mode.toDigits p.digits
        ((Decimal.quotientMode a' b).stored (a'.toRat / b.toRat) maxPlaces) := by
  by_cases all : 27 < p.digits
  · have first := even all a b (by simp)
    have second := even all a' b (by simp)
    rw [first, second, same]
  · have positive : 0 < b.mantissa := by
      rw [Decimal.isZero, beq_iff_eq] at nonzero
      omega
    exact Decimal.toDigits_quotient_eq p.mode (Nat.le_of_not_lt all) positive same

/-- **Quotients by a positive divisor** stand in the order of their dividends.  Half-even division
is asked for where these are one number. -/
theorem divide_mono (pos : 0 < b.toRat) (le : a.toRat ≤ a'.toRat)
    (even : a.toRat = a'.toRat → p.DividesHalfEven {(a, b), (a', b)}) (h : p.divide a b = .ok c)
    (h' : p.divide a' b = .ok c') : c.toRat ≤ c'.toRat := by
  rw [toRat_divide_by h, toRat_divide_by h']
  rcases le.eq_or_lt with same | lt
  · exact (toDigits_quotient_eq (isZero_of_divide h) same (even same)).le
  · -- different quotients keep their order, in whichever mode each of them is stored
    exact p.mode.toDigits_mono p.digits_pos (RoundingMode.stored_le_stored_of_lt
      (Decimal.isNearest_quotientMode a b) (Decimal.isNearest_quotientMode a' b) maxPlaces
      ((div_lt_div_iff_of_pos_right pos).mpr lt))

end Precision

end Tariff
