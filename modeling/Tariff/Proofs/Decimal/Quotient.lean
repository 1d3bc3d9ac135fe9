import Mathlib.Data.Nat.Prime.Basic
import Mathlib.Tactic.NormNum.Prime
import Tariff.Proofs.Decimal.Rounding
import Tariff.Proofs.Rounding.Middle

/-!
# Quotients of one number written in two ways

A number may be written with more or fewer zeros at its end, and on the way in
which it is written depends how its quotient by a wide divisor is rounded from
the middle.  The quotients are then stored with two mantissas, and these differ in
a digit that rounding to 27 digits or fewer does not show.

## Main statements

* `Decimal.le_abs_div_of_halfUp` — what is rounded half-up fills the mantissa
* `Decimal.middle_of_short` — the last digits of a quotient in the middle, where
  its dividend has room for another zero
* `Decimal.toDigits_quotient_eq` — quotients of one number have the same digits up
  to the twenty-seventh

## Design notes

Only a dividend that has room for another zero can be written in two ways.  Such a
dividend is so short that its quotient, where it fills the mantissa in the middle,
owes its digits to a divisor with many fives, and ends in twenty-five.  The digits
before the middle are then a two and a three, and no bound between rounded numbers
lies between these.
-/

namespace Tariff

/-- A number that is long, ends in five and is a quotient of a short one ends in twenty-five. -/
theorem dvd_of_quotient {long short divisor i j : ℕ} (odd : long % 2 = 1) (five : 5 ∣ long)
    (less : 10 * short < long) (pos : 0 < divisor)
    (eq : long * divisor * 10 ^ i = short * 10 ^ j) : 25 ∣ long := by
  by_contra last
  obtain ⟨rest, rfl⟩ := five
  -- the divisor takes up all powers of ten
  have split : j ≤ i ∨ ∃ t, j = i + (t + 1) := by
    rcases Nat.lt_or_ge i j with lt | ge
    · exact .inr ⟨j - i - 1, by omega⟩
    · exact .inl ge
  rcases split with le | ⟨t, rfl⟩
  · have whole : short = 5 * rest * divisor * 10 ^ (i - j) := by
      refine Nat.eq_of_mul_eq_mul_right (by positivity : 0 < 10 ^ j) ?_
      rw [← eq, Nat.mul_assoc _ (10 ^ (i - j)), ← pow_add, Nat.sub_add_cancel le]
    have : 5 * rest ≤ short := by
      rw [whole, Nat.mul_assoc]
      exact Nat.le_mul_of_pos_right _ (by positivity)
    omega
  · have cancelled : 5 * rest * divisor = short * 10 ^ (t + 1) := by
      refine Nat.eq_of_mul_eq_mul_right (by positivity : 0 < 10 ^ i) ?_
      rw [eq, Nat.mul_assoc, ← pow_add, Nat.add_comm i]
    have coprime : Nat.Coprime (2 * 10 ^ t) rest := by
      have two : Nat.Coprime 2 rest := by
        rw [Nat.coprime_two_left, Nat.odd_iff]
        omega
      have fives : Nat.Coprime 5 rest := by
        rw [Nat.Prime.coprime_iff_not_dvd (by norm_num)]
        omega
      exact two.mul_left ((Nat.Coprime.mul_left two fives : Nat.Coprime (2 * 5) rest).pow_left t)
    have divides : 2 * 10 ^ t ∣ divisor := by
      refine coprime.dvd_of_dvd_mul_left ⟨short, ?_⟩
      have : 5 * (rest * divisor) = 5 * (2 * 10 ^ t * short) := by
        rw [← Nat.mul_assoc, cancelled, pow_succ]
        ring
      omega
    have large := Nat.le_of_dvd pos divides
    have power : 0 < 10 ^ t := by positivity
    have : 5 * rest * (2 * 10 ^ t) ≤ short * 10 ^ (t + 1) :=
      cancelled ▸ Nat.mul_le_mul_left _ large
    rw [pow_succ] at this
    nlinarith

namespace Decimal

variable {a a' b : Decimal}

/-- The size of a quotient. -/
theorem abs_div_toRat (a b : Decimal) :
    |a.toRat / b.toRat| = a.mantissa * 10 ^ b.scale / (b.mantissa * 10 ^ a.scale) := by
  rw [abs_div, abs_toRat, abs_toRat, div_div_div_eq, zpow_natCast, zpow_natCast,
    mul_comm (10 ^ a.scale : ℚ)]

/-- **What is rounded half-up** fills the mantissa at the last place. -/
theorem le_abs_div_of_halfUp (positive : 0 < b.mantissa) (up : quotientMode a b = .halfUp) :
    (mantissaLimit : ℚ) ≤ |a.toRat / b.toRat| * 10 ^ (maxPlaces : ℤ) := by
  by_contra room
  have divisor : (0 : ℚ) < b.mantissa * 10 ^ a.scale := by positivity
  rw [not_le, abs_div_toRat, div_mul_eq_mul_div, div_lt_iff₀ divisor, zpow_natCast, mul_assoc,
    ← pow_add, Nat.add_comm] at room
  have even : quotientMode a b = .halfEven := by
    refine quotientMode_of_room positive ?_
    rw [tenTo_eq, tenTo_eq]
    exact_mod_cast room
  rw [up] at even
  cases even

/-- **A quotient in the middle** of two mantissas has a last digit of two or seven before the
middle, if there is room for another zero behind the dividend. -/
theorem middle_of_short (positive : 0 < b.mantissa) (short : 10 * a.mantissa < mantissaLimit)
    {places k : ℕ} (middle : |a.toRat / b.toRat| * 10 ^ (places : ℤ) = 2 * k + 1 / 2)
    (filled : mantissaLimit ≤ 20 * k + 5) : k % 5 = 1 := by
  have divisor : (0 : ℚ) < b.mantissa * 10 ^ a.scale := by positivity
  have eq : (20 * k + 5) * b.mantissa * 10 ^ a.scale = a.mantissa * 10 ^ (b.scale + places + 1) := by
    rw [abs_div_toRat, div_mul_eq_mul_div, div_eq_iff divisor.ne', zpow_natCast, mul_assoc,
      ← pow_add] at middle
    have : ((20 * k + 5) * b.mantissa * 10 ^ a.scale : ℚ) =
        a.mantissa * 10 ^ (b.scale + places + 1) := by
      rw [pow_succ]
      linarith
    exact_mod_cast this
  have ends := dvd_of_quotient (by omega) (by omega) (short.trans_le filled) positive eq
  omega

/-- **A number written in two ways** has room for another zero in one of them. -/
theorem short_of_scale_ne (same : a.toRat = a'.toRat) (ne : a.scale ≠ a'.scale) :
    10 * a.mantissa < mantissaLimit ∨ 10 * a'.mantissa < mantissaLimit := by
  have tenfold {d e : Decimal} (same : d.toRat = e.toRat) (lt : d.scale < e.scale) :
      10 * d.mantissa < mantissaLimit := by
    have sizes : |d.toRat| = |e.toRat| := by rw [same]
    have power (s : ℕ) : (10 : ℚ) ^ (s : ℤ) ≠ 0 := by positivity
    rw [abs_toRat, abs_toRat, div_eq_div_iff (power _) (power _), zpow_natCast, zpow_natCast] at sizes
    obtain ⟨more, eq⟩ := Nat.exists_eq_add_of_lt lt
    have mantissa : d.mantissa * 10 ^ (more + 1) = e.mantissa := by
      have cast : (d.mantissa * 10 ^ (more + 1) * 10 ^ d.scale : ℚ) = e.mantissa * 10 ^ d.scale := by
        rw [← sizes, mul_assoc, ← pow_add, eq]
        congr 2
        omega
      exact_mod_cast mul_right_cancel₀ (by positivity) cast
    have one : 1 ≤ 10 ^ more := Nat.one_le_pow _ _ (by decide)
    rw [pow_succ] at mantissa
    have := e.mantissa_lt
    nlinarith
  rcases Nat.lt_or_gt_of_ne ne with lt | gt
  · exact .inl (tenfold same lt)
  · exact .inr (tenfold same.symm gt)

theorem quotientMode_eq_or (a b : Decimal) :
    quotientMode a b = .halfUp ∨ quotientMode a b = .halfEven := by
  rw [quotientMode]
  split
  · exact .inl rfl
  · exact .inr rfl

/-- **Quotients of one number** have the same digits up to the twenty-seventh, in whichever ways
their dividends are written. -/
theorem toDigits_quotient_eq {count : ℕ} (mode : RoundingMode) (few : count ≤ 27)
    (positive : 0 < b.mantissa) (same : a.toRat = a'.toRat) :
    mode.toDigits count ((quotientMode a b).stored (a.toRat / b.toRat) maxPlaces) =
      mode.toDigits count ((quotientMode a' b).stored (a'.toRat / b.toRat) maxPlaces) := by
  -- ways of writing that are rounded in two modes have two scales
  have scales (ne : quotientMode a b ≠ quotientMode a' b) : a.scale ≠ a'.scale := by
    intro eq
    have sizes : |a.toRat| = |a'.toRat| := by rw [same]
    have power : (10 : ℚ) ^ (a'.scale : ℤ) ≠ 0 := by positivity
    rw [abs_toRat, abs_toRat, eq, div_left_inj' power, Nat.cast_inj] at sizes
    exact ne (by rw [quotientMode, quotientMode, sizes, eq])
  have fifth (ne : quotientMode a b ≠ quotientMode a' b) (places k : ℕ)
      (middle : |a.toRat / b.toRat| * 10 ^ (places : ℤ) = 2 * k + 1 / 2)
      (filled : mantissaLimit ≤ 20 * k + 5) : k % 5 = 1 := by
    rcases short_of_scale_ne same (scales ne) with short | short
    · exact middle_of_short positive short middle filled
    · exact middle_of_short positive short (same ▸ middle) filled
  rcases quotientMode_eq_or a b with up | even
  · rcases quotientMode_eq_or a' b with up' | even'
    · rw [up, up', same]
    · rw [up, even', ← same]
      exact RoundingMode.toDigits_stored_halfUp few (le_abs_div_of_halfUp positive up)
        (fifth (by rw [up, even']; decide))
  · rcases quotientMode_eq_or a' b with up' | even'
    · rw [even, up', ← same]
      exact (RoundingMode.toDigits_stored_halfUp few
        (same ▸ le_abs_div_of_halfUp positive up') (fifth (by rw [even, up']; decide))).symm
    · rw [even, even', same]

end Decimal

end Tariff
