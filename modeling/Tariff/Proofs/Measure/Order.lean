import Tariff.Proofs.Measure.Precision

/-!
# Calculation and order

Calculation under a precision keeps the order of numbers, as far as its results
exist: rounding, sums, differences, products and half-even quotients do so in every
mode.

## Main definitions

* `KeepsOrder`, `TurnsOrder` — calculations with results in the order of their
  operands, or in the opposite one
* `Precision.mirror` — the precision that treats negative numbers as another one
  treats positive ones

## Main statements

* `Precision.round_round`, `Precision.round_negate` — rounding again, and rounding
  with the other sign
* `Precision.calculation_ordered` — the laws of calculation under a precision
* `Precision.divide_disordered` — two quotients of one number that are not half-even

## Design notes

Order and equality are those of the numbers, not of the decimals that are written.
All operations but the quotient depend on numbers alone (`keep`).  Quotients are
asked to be stored half-even where all 28 digits are kept.  Up to 27 digits, and for
a divisor of at most 64 bits, they keep the order without that.
-/

namespace Tariff

/-- **A calculation that keeps the order** of numbers, where it has results. -/
def KeepsOrder (f : Decimal → Measured Decimal) : Prop :=
  ∀ ⦃a a' c c' : Decimal⦄, a.toRat ≤ a'.toRat → f a = .ok c → f a' = .ok c' → c.toRat ≤ c'.toRat

/-- **A calculation that turns the order** of numbers round. -/
def TurnsOrder (f : Decimal → Measured Decimal) : Prop :=
  ∀ ⦃a a' c c' : Decimal⦄, a.toRat ≤ a'.toRat → f a = .ok c → f a' = .ok c' → c'.toRat ≤ c.toRat

theorem keepsOrder_of_monotone {f : Decimal → Measured Decimal} {g : ℚ → ℚ} (mono : Monotone g)
    (value : ∀ a c, f a = .ok c → c.toRat = g a.toRat) : KeepsOrder f := by
  intro a a' c c' le h h'
  rw [value a c h, value a' c' h']
  exact mono le

theorem turnsOrder_of_antitone {f : Decimal → Measured Decimal} {g : ℚ → ℚ} (anti : Antitone g)
    (value : ∀ a c, f a = .ok c → c.toRat = g a.toRat) : TurnsOrder f := by
  intro a a' c c' le h h'
  rw [value a c h, value a' c' h']
  exact anti le

namespace Precision

variable {p : Precision} {a a' b c c' : Decimal}

/-! ## Rounding -/

/-- **A rounded number is rounded to itself.** -/
theorem round_round (h : p.round a = .ok c) : ∃ d, p.round c = .ok d ∧ d.toRat = c.toRat := by
  have kept : p.mode.toDigits p.digits c.toRat = c.toRat := by
    rw [toRat_round h]
    exact p.mode.toDigits_of_hasDigits (p.mode.hasDigits_toDigits p.digits_pos _)
  obtain ⟨d, hd⟩ := Option.isSome_iff_exists.mp
    ((Decimal.roundSignificant?_isSome_iff p.digits_le).mpr (kept ▸ c.abs_toRat_lt))
  have rounded : p.round c = .ok d := Outcome.orOverflow_eq_ok.mpr hd
  exact ⟨d, rounded, (toRat_round rounded).trans kept⟩

/-- **The mirrored precision** keeps as many digits, and treats negative numbers as the other one
treats positive ones. -/
def mirror (p : Precision) : Precision :=
  { p with mode := p.mode.mirror }

/-- All modes but ceiling and floor treat both signs alike. -/
theorem mirror_eq (ceiling : p.mode ≠ .ceiling) (floor : p.mode ≠ .floor) : p.mirror = p := by
  rw [eq_iff]
  refine ⟨rfl, ?_⟩
  rw [mirror]
  cases mode : p.mode <;> simp_all [RoundingMode.mirror]

/-- **The sign may be turned round** before or after rounding, with the mirrored precision. -/
theorem round_negate (h : p.round a = .ok c) :
    ∃ d, p.mirror.round a.negate = .ok d ∧ d.toRat = -c.toRat := by
  have turned : p.mirror.mode.toDigits p.mirror.digits a.negate.toRat = -c.toRat := by
    rw [Decimal.toRat_negate, RoundingMode.toDigits_neg, toRat_round h]
    exact congrArg (fun mode => -RoundingMode.toDigits mode p.digits a.toRat) p.mode.mirror_mirror
  obtain ⟨d, hd⟩ := Option.isSome_iff_exists.mp
    ((Decimal.roundSignificant?_isSome_iff p.mirror.digits_le).mpr
      (by rw [turned, abs_neg]; exact c.abs_toRat_lt))
  have rounded : p.mirror.round a.negate = .ok d := Outcome.orOverflow_eq_ok.mpr hd
  exact ⟨d, rounded, (toRat_round rounded).trans turned⟩

/-! ## Digits -/

/-- **A result has no more digits than are kept**, whichever operation it is of. -/
theorem hasDigits_of_round (h : p.round a = .ok c) : HasDigits p.digits c.toRat := by
  rw [toRat_round h]
  exact p.mode.hasDigits_toDigits p.digits_pos _

theorem hasDigits_of_bind {x : Measured Decimal} (h : x >>= p.round = .ok c) :
    HasDigits p.digits c.toRat := by
  obtain ⟨exact, -, rounded⟩ := Outcome.bind_eq_ok.mp h
  exact hasDigits_of_round rounded

theorem hasDigits_of_divide (h : p.divide a b = .ok c) : HasDigits p.digits c.toRat := by
  rw [divide, if_neg (isZero_of_divide h)] at h
  exact hasDigits_of_bind h

/-! ## Order -/

/-- **The laws of calculation** under a precision, as far as there are results.  Rounding a rounded
number changes nothing; the sign may be turned round before or after rounding, which turns a
ceiling into a floor and leaves every other mode as it is; and rounding neither changes the sign
nor makes a number zero.  No result has more digits than are kept.  Rounding keeps the order of
numbers, as do sums and differences in the number on their left, products with a factor that is
not negative, and quotients by a positive divisor; differences turn the order of the numbers that
are taken away.  Quotients are half-even; the order of quotients rests on it only at 28 digits, for
a divisor of more than 64 bits and for dividends that are one number. -/
theorem calculation_ordered (p : Precision) :
    (∀ a c, p.round a = .ok c →
      (∃ d, p.round c = .ok d ∧ d.toRat = c.toRat) ∧
      (∃ d, p.mirror.round a.negate = .ok d ∧ d.toRat = -c.toRat) ∧
      (c.toRat < 0 ↔ a.toRat < 0) ∧ (c.toRat = 0 ↔ a.toRat = 0)) ∧
    (p.mode ≠ .ceiling → p.mode ≠ .floor → p.mirror = p) ∧
    (∀ a b c, p.round a = .ok c ∨ p.add a b = .ok c ∨ p.subtract a b = .ok c ∨
      p.multiply a b = .ok c ∨ p.divide a b = .ok c → HasDigits p.digits c.toRat) ∧
    KeepsOrder p.round ∧
    (∀ b, KeepsOrder (p.add · b) ∧ KeepsOrder (p.subtract · b) ∧ TurnsOrder (p.subtract b)) ∧
    (∀ factor, 0 ≤ factor.toRat →
      KeepsOrder (p.multiply · factor) ∧ KeepsOrder (p.multiply factor)) ∧
    (∀ divisor, 0 < divisor.toRat →
      (p.digits ≤ 27 ∨ divisor.mantissa < Decimal.wideFrom → KeepsOrder (p.divide · divisor)) ∧
      ∀ a a' c c', a.toRat ≤ a'.toRat →
        (a.toRat = a'.toRat → p.DividesHalfEven {(a, divisor), (a', divisor)}) →
        p.divide a divisor = .ok c → p.divide a' divisor = .ok c' → c.toRat ≤ c'.toRat) := by
  refine ⟨?_, mirror_eq, ?_, ?_, ?_, ?_, ?_⟩
  · intro a c h
    have sign := p.mode.toDigits_sign p.digits_pos a.toRat
    rw [← toRat_round h] at sign
    exact ⟨round_round h, round_negate h, sign⟩
  · rintro a b c (h | h | h | h | h)
    · exact hasDigits_of_round h
    · exact hasDigits_of_bind h
    · exact hasDigits_of_bind h
    · exact hasDigits_of_bind h
    · exact hasDigits_of_divide h
  · exact keepsOrder_of_monotone (p.mode.toDigits_mono p.digits_pos) fun _ _ => toRat_round
  · intro b
    refine ⟨?_, ?_, ?_⟩
    · exact keepsOrder_of_monotone (g := fun x => p.keep (x + b.toRat))
        (fun _ _ le => p.keep_mono (add_le_add_left le _)) fun _ _ => toRat_add
    · exact keepsOrder_of_monotone (g := fun x => p.keep (x - b.toRat))
        (fun _ _ le => p.keep_mono (sub_le_sub_right le _)) fun _ _ => toRat_subtract
    · exact turnsOrder_of_antitone (g := fun x => p.keep (b.toRat - x))
        (fun _ _ le => p.keep_mono (sub_le_sub_left le _)) fun _ _ => toRat_subtract
  · intro factor nonneg
    refine ⟨?_, ?_⟩
    · exact keepsOrder_of_monotone (g := fun x => p.keep (x * factor.toRat))
        (fun _ _ le => p.keep_mono (mul_le_mul_of_nonneg_right le nonneg)) fun _ _ => toRat_multiply
    · exact keepsOrder_of_monotone (g := fun x => p.keep (factor.toRat * x))
        (fun _ _ le => p.keep_mono (mul_le_mul_of_nonneg_left le nonneg)) fun _ _ => toRat_multiply
  · intro divisor pos
    refine ⟨fun few a a' c c' le h h' => divide_mono pos le (fun _ => ?_) h h',
      fun a a' c c' le even h h' => divide_mono pos le even h h'⟩
    rcases few with few | narrow
    · exact fun all => absurd all (Nat.not_lt.mpr few)
    · refine dividesHalfEven_of_lt ?_
      rintro _ _ (⟨rfl, rfl⟩ | ⟨rfl, rfl⟩)
      · exact narrow
      · exact narrow

/-! ## A quotient in the middle -/

/-- A divisor of more than 64 bits. -/
def wideDivisor : Decimal := .ofDigits 40000000000000000000000000 0

/-- A dividend whose quotient by it lies in the middle between two mantissas. -/
def middleDividend : Decimal := .ofDigits 3169126500570573503744000001 0

/-- The same number with a zero behind the point. -/
def middleDividendTenths : Decimal := .ofDigits 31691265005705735037440000010 1

/-- Two digits, rounded to the greater number. -/
def twoUpwards : Precision := ⟨2, .ceiling, by decide, by decide⟩

/-- Under two digits 9.91 is carried to ten on either side of zero, and its third stands in the
order; under all digits the quotients of one, with and without a zero behind the point, by a wide
divisor are half-even and stand in the order. -/
theorem calculation_ordered_carry :
    (∃ c d e, twoUpwards.round (.ofDigits 991 2) = .ok c ∧
      twoUpwards.round c = .ok d ∧ d.toRat = c.toRat ∧
      twoUpwards.mirror.round (Decimal.ofDigits 991 2).negate = .ok e ∧ e.toRat = -c.toRat ∧
      HasDigits 2 c.toRat ∧ c.toRat ≠ 0) ∧
    (∃ q r, twoUpwards.divide (.ofDigits 991 2) (.ofDigits 3 0) = .ok q ∧
      twoUpwards.divide (.ofDigits 105 1) (.ofDigits 3 0) = .ok r ∧ q.toRat ≤ r.toRat) ∧
    ∃ q r, full.divide .one wideDivisor = .ok q ∧
      full.divide (.ofDigits 10 1) wideDivisor = .ok r ∧ q.toRat ≤ r.toRat := by
  refine ⟨?_, ?_, ?_⟩
  · have h : twoUpwards.round (.ofDigits 991 2) = .ok (.ofDigits 100 1) := by decide +kernel
    obtain ⟨rounding, -, digits, -⟩ := calculation_ordered twoUpwards
    obtain ⟨⟨d, again, same⟩, ⟨e, turned, value⟩, -, zero⟩ := rounding _ _ h
    refine ⟨_, d, e, h, again, same, turned, value, digits _ .zero _ (.inl h), ?_⟩
    rw [Ne, zero]
    decide +kernel
  · obtain ⟨-, -, -, -, -, -, quotients⟩ := calculation_ordered twoUpwards
    have h : twoUpwards.divide (.ofDigits 991 2) (.ofDigits 3 0) = .ok (.ofDigits 34 1) := by
      decide +kernel
    have h' : twoUpwards.divide (.ofDigits 105 1) (.ofDigits 3 0) = .ok (.ofDigits 35 1) := by
      decide +kernel
    have order := (quotients (.ofDigits 3 0) (by decide +kernel)).1 (.inl (by decide))
    exact ⟨_, _, h, h', order (by decide +kernel) h h'⟩
  · obtain ⟨-, -, -, -, -, -, quotients⟩ := calculation_ordered full
    obtain ⟨q, h⟩ : ∃ q, full.divide .one wideDivisor = .ok q :=
      Outcome.exists_of_isOk (by decide +kernel)
    obtain ⟨r, h'⟩ : ∃ r, full.divide (.ofDigits 10 1) wideDivisor = .ok r :=
      Outcome.exists_of_isOk (by decide +kernel)
    have nonzero : wideDivisor.toRat ≠ 0 := by decide +kernel
    have even : full.DividesHalfEven
        {(Decimal.one, wideDivisor), (Decimal.ofDigits 10 1, wideDivisor)} := by
      rintro - _ _ (⟨rfl, rfl⟩ | ⟨rfl, rfl⟩)
      · exact Decimal.quotientHalfEven_of_abs_le nonzero (by decide +kernel)
      · exact Decimal.quotientHalfEven_of_abs_le nonzero (by decide +kernel)
    exact ⟨q, r, h, h', (quotients wideDivisor (by decide +kernel)).2 _ _ _ _ (by decide +kernel)
      (fun _ => even) h h'⟩

/-- **One number with two quotients**, one of them not half-even.  From the middle the quotient goes
away from zero, but to the even mantissa if another zero is written behind the dividend. -/
theorem divide_disordered :
    middleDividend.toRat = middleDividendTenths.toRat ∧ 0 < wideDivisor.toRat ∧
    full.divide middleDividend wideDivisor = .ok (.ofDigits 7922816251426433759360000003 26) ∧
    full.divide middleDividendTenths wideDivisor = .ok (.ofDigits 7922816251426433759360000002 26) ∧
    (Decimal.ofDigits 7922816251426433759360000002 26).toRat <
      (Decimal.ofDigits 7922816251426433759360000003 26).toRat ∧
    ¬ KeepsOrder (full.divide · wideDivisor) := by
  have same : middleDividend.toRat = middleDividendTenths.toRat := by decide +kernel
  have up : full.divide middleDividend wideDivisor =
      .ok (.ofDigits 7922816251426433759360000003 26) := by
    decide +kernel
  have even : full.divide middleDividendTenths wideDivisor =
      .ok (.ofDigits 7922816251426433759360000002 26) := by
    decide +kernel
  have less : (Decimal.ofDigits 7922816251426433759360000002 26).toRat <
      (Decimal.ofDigits 7922816251426433759360000003 26).toRat := by
    decide +kernel
  exact ⟨same, by decide +kernel, up, even, less, fun order => less.not_ge (order same.le up even)⟩

end Precision

end Tariff
