import Mathlib.Algebra.Order.Field.Rat
import Mathlib.Data.Int.ConditionallyCompleteOrder
import Mathlib.Data.Int.Log
import Mathlib.Data.Rat.Floor
import Mathlib.Order.Monotone.Union
import Mathlib.Tactic.FieldSimp
import Mathlib.Tactic.Linarith
import Mathlib.Tactic.Positivity
import Mathlib.Tactic.Ring
import Tariff.Decimal.Rounding

/-!
# Rounding rational numbers to whole numbers

`RoundingMode.quotient` rounds the magnitude of a fraction of natural numbers.
Whatever is calculated with decimals is a rational number, so the laws of
rounding are stated here on rational numbers, where a number no longer depends
on the fraction by which it is written.

## Main definitions

* `signed` — a magnitude with its sign
* `RoundingMode.mirror` — the mode that treats negative numbers as another mode
  treats positive ones
* `RoundingMode.whole` — a rational number rounded to a whole number

## Main statements

* `RoundingMode.quotient_le_quotient` — a larger fraction has no smaller
  rounded quotient
* `RoundingMode.whole_mono` — rounding keeps the order of numbers
* `RoundingMode.whole_intCast` — a whole number is not changed
* `RoundingMode.whole_neg` — the sign may be turned round before or after
* `RoundingMode.abs_whole_sub_le_half` — a mode that rounds to the nearest
  number is never off by more than a half
* `RoundingMode.whole_halfUp_eq_or` — where half-up and half-even rounding part
* `RoundingMode.whole_le_whole_of_lt` — different numbers keep their order under
  two nearest modes

## Design notes

Order and the fixed whole numbers are the two facts that everything later rests
on: a monotone function that fixes the points of a grid cannot carry a number
across one of them.  The modes are told apart here only, in the facts about
`RoundingMode.roundsAway`.
-/

namespace Tariff

/-! ## Signs -/

/-- A magnitude with a sign. -/
def signed (negative : Bool) (x : ℚ) : ℚ :=
  if negative then -x else x

@[simp] theorem signed_false (x : ℚ) : signed false x = x := rfl

@[simp] theorem signed_true (x : ℚ) : signed true x = -x := rfl

@[simp] theorem signed_zero (negative : Bool) : signed negative 0 = 0 := by
  cases negative <;> simp

@[simp] theorem abs_signed (negative : Bool) (x : ℚ) :
    |signed negative x| = |x| := by
  cases negative <;> simp

/-- The sign of a zero does not matter. -/
theorem signed_congr {m n : Bool} {x : ℚ} (eq : x ≠ 0 → m = n) : signed m x = signed n x := by
  rcases eq_or_ne x 0 with rfl | ne
  · simp
  · rw [eq ne]

/-- A factor may be taken out from under the sign. -/
theorem signed_mul (negative : Bool) (x y : ℚ) :
    signed negative (x * y) = signed negative x * y := by
  cases negative <;> simp

theorem signed_div (negative : Bool) (x y : ℚ) :
    signed negative (x / y) = signed negative x / y := by
  cases negative <;> simp [neg_div]

/-- Signs multiply: they cancel when they agree. -/
theorem signed_mul_signed (m n : Bool) (x y : ℚ) :
    signed m x * signed n y = signed (m != n) (x * y) := by
  cases m <;> cases n <;> simp

theorem signed_div_signed (m n : Bool) (x y : ℚ) :
    signed m x / signed n y = signed (m != n) (x / y) := by
  cases m <;> cases n <;> simp [neg_div, div_neg]

namespace RoundingMode

/-! ## The parts that are rounded away -/

/-- A part that is no smaller a fraction of its divisor is rounded away if the
smaller one is. -/
theorem roundsAway_of_le {mode : RoundingMode} {negative : Bool}
    {whole part part' divisor divisor' : ℕ} (pos : 0 < divisor)
    (pos' : 0 < divisor') (le : part * divisor' ≤ part' * divisor)
    (away : mode.roundsAway negative whole part divisor = true) :
    mode.roundsAway negative whole part' divisor' = true := by
  -- Each mode asks one of three questions, and what a smaller fraction passes a larger one does.
  have positive (h : 0 < part) : 0 < part' := by
    have : 0 < part' * divisor := (Nat.mul_pos h pos').trans_le le
    exact Nat.pos_of_mul_pos_right this
  have half (h : divisor ≤ 2 * part) : divisor' ≤ 2 * part' := by
    refine Nat.le_of_mul_le_mul_left ?_ pos
    nlinarith
  have aboveHalf (h : divisor < 2 * part) : divisor' < 2 * part' := by
    refine Nat.lt_of_mul_lt_mul_left (a := divisor) ?_
    nlinarith
  cases mode with
  | up => simpa [roundsAway] using positive (by simpa [roundsAway] using away)
  | down => simp [roundsAway] at away
  | ceiling =>
      simp only [roundsAway, Bool.and_eq_true, decide_eq_true_eq] at away ⊢
      exact ⟨positive away.1, away.2⟩
  | floor =>
      simp only [roundsAway, Bool.and_eq_true, decide_eq_true_eq] at away ⊢
      exact ⟨positive away.1, away.2⟩
  | halfUp => simpa [roundsAway] using half (by simpa [roundsAway] using away)
  | halfDown =>
      simpa [roundsAway] using aboveHalf (by simpa [roundsAway] using away)
  | halfEven =>
      simp only [roundsAway, Bool.or_eq_true, Bool.and_eq_true,
        decide_eq_true_eq, beq_iff_eq] at away ⊢
      rcases away with above | ⟨middle, odd⟩
      · exact Or.inl (aboveHalf above)
      · rcases (half middle.le).lt_or_eq with above' | middle'
        · exact Or.inl above'
        · exact Or.inr ⟨middle', odd⟩

/-- **Order of rounded quotients.**  A larger fraction has no smaller rounded
quotient. -/
theorem quotient_le_quotient (mode : RoundingMode) (negative : Bool)
    {dividend dividend' divisor divisor' : ℕ} (pos : 0 < divisor)
    (pos' : 0 < divisor') (le : dividend * divisor' ≤ dividend' * divisor) :
    mode.quotient negative dividend divisor ≤
      mode.quotient negative dividend' divisor' := by
  have wholes : dividend / divisor ≤ dividend' / divisor' := by
    refine (Nat.le_div_iff_mul_le pos').mpr ?_
    refine Nat.le_of_mul_le_mul_right ?_ pos
    calc dividend / divisor * divisor' * divisor
        = dividend / divisor * divisor * divisor' := by ring
      _ ≤ dividend * divisor' :=
          Nat.mul_le_mul_right _ (Nat.div_mul_le_self _ _)
      _ ≤ dividend' * divisor := le
  have lower := (mode.quotient_bounds negative dividend' divisor').1
  rcases wholes.lt_or_eq with lt | eq
  · have upper := (mode.quotient_bounds negative dividend divisor).2
    omega
  · -- The whole parts agree, so the parts left over stand in the same order.
    have parts : dividend % divisor * divisor' ≤ dividend' % divisor' * divisor := by
      have split := Nat.div_add_mod dividend divisor
      have split' := Nat.div_add_mod dividend' divisor'
      rw [eq] at split
      nlinarith
    simp only [quotient]
    rw [eq]
    split
    · next away => rw [if_pos (roundsAway_of_le pos pos' parts away)]
    · split <;> omega

/-- Equal fractions have equal rounded quotients. -/
theorem quotient_eq_quotient (mode : RoundingMode) (negative : Bool)
    {dividend dividend' divisor divisor' : ℕ} (pos : 0 < divisor)
    (pos' : 0 < divisor') (eq : dividend * divisor' = dividend' * divisor) :
    mode.quotient negative dividend divisor =
      mode.quotient negative dividend' divisor' :=
  le_antisymm (mode.quotient_le_quotient negative pos pos' eq.le)
    (mode.quotient_le_quotient negative pos' pos eq.ge)

@[simp] theorem quotient_one (mode : RoundingMode) (negative : Bool) (n : ℕ) :
    mode.quotient negative n 1 = n := by
  rw [quotient_exact mode negative one_pos (Nat.mod_one n), Nat.div_one]

@[simp] theorem quotient_zero (mode : RoundingMode) (negative : Bool) {divisor : ℕ}
    (pos : 0 < divisor) : mode.quotient negative 0 divisor = 0 := by
  rw [quotient_exact mode negative pos (Nat.zero_mod _), Nat.zero_div]

/-! ## Mirrored modes -/

/-- The mode that treats negative numbers as this one treats positive ones. -/
def mirror : RoundingMode → RoundingMode
  | ceiling => floor
  | floor => ceiling
  | mode => mode

@[simp] theorem mirror_mirror (mode : RoundingMode) : mode.mirror.mirror = mode := by
  cases mode <;> rfl

/-- A mode sees the sign of a number only as far as its mirror sees the other
sign. -/
theorem quotient_mirror (mode : RoundingMode) (negative : Bool) (dividend divisor : ℕ) :
    mode.mirror.quotient negative dividend divisor =
      mode.quotient (!negative) dividend divisor := by
  cases mode <;> simp [mirror, quotient, roundsAway]

/-! ## Rounding rational numbers -/

/-- **Whole number.**  A rational number rounded to a whole number. -/
def whole (mode : RoundingMode) (x : ℚ) : ℤ :=
  if x < 0 then -(mode.quotient true x.num.natAbs x.den : ℤ)
  else (mode.quotient false x.num.natAbs x.den : ℤ)

/-- The magnitude of a rational number as a fraction in lowest terms. -/
theorem abs_eq_lowest (x : ℚ) : |x| = (x.num.natAbs : ℚ) / x.den := by
  conv_lhs => rw [← Rat.num_div_den x, abs_div, Nat.abs_cast]
  rw [Nat.cast_natAbs, Int.cast_abs]

/-- The fraction in lowest terms is a fraction like any other. -/
theorem num_mul_eq {x : ℚ} {dividend divisor : ℕ} (pos : 0 < divisor)
    (eq : |x| = dividend / divisor) :
    x.num.natAbs * divisor = dividend * x.den := by
  have den : (x.den : ℚ) ≠ 0 := by exact_mod_cast x.den_ne_zero
  have div : (divisor : ℚ) ≠ 0 := by exact_mod_cast pos.ne'
  rw [abs_eq_lowest, div_eq_div_iff den div] at eq
  exact_mod_cast eq

/-- A fraction with a sign is rounded by its quotient. -/
theorem whole_signed (mode : RoundingMode) (negative : Bool) (dividend : ℕ)
    {divisor : ℕ} (pos : 0 < divisor) :
    (mode.whole (signed negative (dividend / divisor)) : ℚ) =
      signed negative (mode.quotient negative dividend divisor) := by
  have nonneg : (0 : ℚ) ≤ dividend / divisor := by positivity
  have quotients (n : Bool) := mode.quotient_eq_quotient n
    (signed negative (dividend / divisor)).den_pos pos
    (num_mul_eq pos ((abs_signed negative _).trans (abs_of_nonneg nonneg)))
  unfold whole
  rw [quotients, quotients]
  cases negative with
  | false => rw [signed_false, if_neg (not_lt.mpr nonneg)]; simp
  | true =>
      -- Only a positive magnitude puts a number below zero; a zero has lost its sign.
      rcases Nat.eq_zero_or_pos dividend with rfl | positive
      · simp [pos]
      · have : (0 : ℚ) < dividend / divisor := by positivity
        rw [signed_true, if_pos (neg_lt_zero.mpr this)]
        simp

/-- Every rational number is a fraction with a sign. -/
theorem exists_signed (x : ℚ) :
    ∃ (negative : Bool) (dividend divisor : ℕ), 0 < divisor ∧
      x = signed negative (dividend / divisor) := by
  rcases le_or_gt 0 x with nonneg | neg
  · refine ⟨false, x.num.natAbs, x.den, x.den_pos, ?_⟩
    rw [signed_false, ← abs_eq_lowest, abs_of_nonneg nonneg]
  · refine ⟨true, x.num.natAbs, x.den, x.den_pos, ?_⟩
    rw [signed_true, ← abs_eq_lowest, abs_of_neg neg, neg_neg]

/-- **The sign may be turned round before or after rounding**, with the mirrored
mode. -/
theorem whole_neg (mode : RoundingMode) (x : ℚ) :
    mode.whole (-x) = -mode.mirror.whole x := by
  obtain ⟨negative, dividend, divisor, pos, rfl⟩ := exists_signed x
  have turned : -signed negative ((dividend : ℚ) / divisor) =
      signed (!negative) (dividend / divisor) := by
    cases negative <;> simp
  rw [← Int.cast_inj (α := ℚ), turned, whole_signed mode _ _ pos, Int.cast_neg,
    whole_signed _ _ _ pos, quotient_mirror]
  cases negative <;> simp

/-- A whole number is not changed by rounding. -/
@[simp] theorem whole_intCast (mode : RoundingMode) (n : ℤ) : mode.whole n = n := by
  unfold whole
  simp only [Rat.num_intCast, Rat.den_intCast, quotient_one, Int.cast_lt_zero]
  split <;> omega

theorem whole_nonneg (mode : RoundingMode) {x : ℚ} (nonneg : 0 ≤ x) :
    0 ≤ mode.whole x := by
  rw [whole, if_neg (not_lt.mpr nonneg)]
  exact Int.natCast_nonneg _

theorem whole_nonpos (mode : RoundingMode) {x : ℚ} (nonpos : x ≤ 0) :
    mode.whole x ≤ 0 := by
  have := mode.mirror.whole_nonneg (neg_nonneg.mpr nonpos)
  rw [whole_neg, mirror_mirror] at this
  omega

/-- Rounding keeps the order of numbers that are not negative. -/
theorem whole_monotoneOn (mode : RoundingMode) : MonotoneOn mode.whole (Set.Ici 0) := by
  intro x (nonneg : 0 ≤ x) y (nonneg' : 0 ≤ y) le
  rw [whole, whole, if_neg (not_lt.mpr nonneg), if_neg (not_lt.mpr nonneg'),
    Int.ofNat_le]
  refine mode.quotient_le_quotient false x.den_pos y.den_pos ?_
  have den : (0 : ℚ) < x.den := by exact_mod_cast x.den_pos
  have den' : (0 : ℚ) < y.den := by exact_mod_cast y.den_pos
  rw [← abs_of_nonneg nonneg, ← abs_of_nonneg nonneg', abs_eq_lowest,
    abs_eq_lowest, div_le_div_iff₀ den den'] at le
  exact_mod_cast le

end RoundingMode

/-- A function that keeps the order of numbers that are not negative, and so
does its mirror image, keeps the order of all numbers. -/
theorem monotone_of_mirror {α : Type} [AddCommGroup α] [PartialOrder α] [IsOrderedAddMonoid α]
    {f g : ℚ → α} (hf : MonotoneOn f (Set.Ici 0)) (hg : MonotoneOn g (Set.Ici 0))
    (mirror : ∀ x, f (-x) = -g x) : Monotone f := by
  refine MonotoneOn.Iic_union_Ici (a := 0) ?_ hf
  intro x nonpos y nonpos' le
  have := hg (Set.mem_Ici.mpr (neg_nonneg.mpr nonpos'))
    (Set.mem_Ici.mpr (neg_nonneg.mpr nonpos)) (neg_le_neg le)
  rw [← neg_neg x, ← neg_neg y, mirror, mirror]
  exact neg_le_neg this

namespace RoundingMode

/-- **Rounding keeps the order of numbers.** -/
theorem whole_mono (mode : RoundingMode) : Monotone mode.whole :=
  monotone_of_mirror mode.whole_monotoneOn mode.mirror.whole_monotoneOn mode.whole_neg

/-- A number is not rounded past a whole one. -/
theorem abs_whole_le (mode : RoundingMode) {x : ℚ} {n : ℤ} (le : |x| ≤ n) :
    |mode.whole x| ≤ n := by
  obtain ⟨lower, upper⟩ := abs_le.mp le
  rw [← Int.cast_neg] at lower
  have below := mode.whole_mono lower
  have above := mode.whole_mono upper
  rw [whole_intCast] at below above
  exact abs_le.mpr ⟨below, above⟩

/-! ## Modes that round to the nearest number -/

/-- Whether a mode rounds to the nearest whole number. -/
def isNearest : RoundingMode → Bool
  | halfUp => true
  | halfDown => true
  | halfEven => true
  | _ => false

/-- The quotient to the nearest whole number is off by a half at most. -/
theorem quotient_near {mode : RoundingMode} (nearest : mode.isNearest = true)
    (negative : Bool) (dividend divisor : ℕ) (pos : 0 < divisor) :
    2 * dividend ≤ (2 * mode.quotient negative dividend divisor + 1) * divisor ∧
      2 * mode.quotient negative dividend divisor * divisor ≤ 2 * dividend + divisor := by
  have split := Nat.div_add_mod dividend divisor
  have part := Nat.mod_lt dividend pos
  have product (w : ℕ) : (2 * w + 1) * divisor = 2 * (divisor * w) + divisor ∧
      2 * w * divisor = 2 * (divisor * w) ∧ divisor * (w + 1) = divisor * w + divisor :=
    ⟨by ring, by ring, by ring⟩
  cases mode <;> simp only [isNearest, Bool.false_eq_true] at nearest <;>
    simp only [quotient, roundsAway, Bool.or_eq_true, Bool.and_eq_true, decide_eq_true_eq,
      beq_iff_eq] <;>
    split <;> simp only [product] <;> omega

/-- **Nearest.**  A mode that rounds to the nearest number is never off by more
than a half. -/
theorem abs_whole_sub_le_half {mode : RoundingMode} (nearest : mode.isNearest = true)
    (x : ℚ) : |(mode.whole x : ℚ) - x| ≤ 1 / 2 := by
  obtain ⟨negative, dividend, divisor, pos, rfl⟩ := exists_signed x
  have positive : (0 : ℚ) < divisor := by exact_mod_cast pos
  obtain ⟨lower, upper⟩ := quotient_near nearest negative dividend divisor pos
  have lower : (2 * dividend : ℚ) ≤ (2 * mode.quotient negative dividend divisor + 1) *
      divisor := by exact_mod_cast lower
  have upper : (2 * mode.quotient negative dividend divisor * divisor : ℚ) ≤
      2 * dividend + divisor := by exact_mod_cast upper
  have near : |(mode.quotient negative dividend divisor : ℚ) - dividend / divisor| ≤ 1 / 2 := by
    have cancel : (dividend : ℚ) / divisor * divisor = dividend := by field_simp
    rw [abs_le]
    constructor <;> nlinarith
  rw [whole_signed mode negative dividend pos]
  cases negative with
  | false => simpa using near
  | true =>
      rw [signed_true, signed_true, neg_sub_neg, abs_sub_comm]
      exact near

/-- Half-up and half-even quotients part in the middle above an even number only. -/
theorem quotient_halfUp_eq_or (dividend divisor : ℕ) :
    halfUp.quotient false dividend divisor = halfEven.quotient false dividend divisor ∨
      2 * (dividend % divisor) = divisor ∧ dividend / divisor % 2 = 0 ∧
        halfEven.quotient false dividend divisor = dividend / divisor ∧
          halfUp.quotient false dividend divisor = dividend / divisor + 1 := by
  simp only [quotient, roundsAway, Bool.or_eq_true, Bool.and_eq_true, decide_eq_true_eq, beq_iff_eq]
  split <;> split <;> omega

/-- **Half-up and half-even** rounding part in the middle above an even number only. -/
theorem whole_halfUp_eq_or {x : ℚ} (nonneg : 0 ≤ x) :
    halfUp.whole x = halfEven.whole x ∨
      ∃ k : ℕ, x = 2 * k + 1 / 2 ∧ halfEven.whole x = 2 * k ∧ halfUp.whole x = 2 * k + 1 := by
  have den : (0 : ℚ) < x.den := by exact_mod_cast x.den_pos
  have value := abs_eq_lowest x
  rw [abs_of_nonneg nonneg] at value
  rw [whole, whole, if_neg (not_lt.mpr nonneg), if_neg (not_lt.mpr nonneg)]
  rcases quotient_halfUp_eq_or x.num.natAbs x.den with same | ⟨middle, even, down, up⟩
  · exact .inl (by rw [same])
  · obtain ⟨k, hk⟩ := Nat.dvd_of_mod_eq_zero even
    refine .inr ⟨k, ?_, by omega, by omega⟩
    have split := Nat.div_add_mod x.num.natAbs x.den
    rw [hk] at split
    have twice : 2 * x.num.natAbs = x.den * (4 * k + 1) := by linarith
    have twice' : (2 * x.num.natAbs : ℚ) = x.den * (4 * k + 1) := by exact_mod_cast twice
    rw [value, div_eq_iff den.ne']
    linarith

/-- **Different numbers keep their order** even if each is rounded in a nearest mode of its own:
only from the middle such modes part. -/
theorem whole_le_whole_of_lt {mode other : RoundingMode} (nearest : mode.isNearest = true)
    (nearest' : other.isNearest = true) {x y : ℚ} (lt : x < y) : mode.whole x ≤ other.whole y := by
  by_contra crossed
  have apart : (other.whole y : ℚ) + 1 ≤ mode.whole x := by
    exact_mod_cast Int.add_one_le_of_lt (not_le.mp crossed)
  have upper := (abs_le.mp (abs_whole_sub_le_half nearest x)).2
  have lower := (abs_le.mp (abs_whole_sub_le_half nearest' y)).1
  linarith

end RoundingMode

end Tariff
