import Mathlib.Algebra.Order.Group.Pointwise.Interval
import Tariff.Proofs.Rounding.Nearest

/-!
# Numbers that are rounded twice

Rounding to digits changes its result only at numbers of few digits and half way between two of
them, and all of these are numbers of one digit more.  What is stored of a number before it is
rounded is therefore rounded like the number itself, unless such a number lies between the two.

## Main definitions

* `FarFromDigits` — numbers that keep a distance from all numbers of some digits
* `RoundingMode.storedStep` — the last place to which a number is stored
* `RoundingMode.quotientSlack` — how far a quotient of a stored number can be off

## Main statements

* `RoundingMode.quotient_of_between` — all quotients between two halves are rounded alike
* `RoundingMode.toDigits_eq_of_halves` — so are numbers with no half step of digits between them
* `RoundingMode.toDigits_eq_of_apart` — and all numbers with no number of one digit more
  between them
* `RoundingMode.abs_stored_sub_le` — storing is off by half a place
* `RoundingMode.abs_stored_quotient_sub_le` — a quotient of a stored number
* `farFromDigits_of_grid` — fractions with a small denominator are far from numbers of few digits

## Design notes

The distance is asked of the exact number, not of the stored one: what is asked can be seen before
anything is calculated.  Where the exact number has few digits itself it keeps no distance, and
there something else is needed, that it is stored as it is.
-/

namespace Tariff

variable {x y z distance : ℚ} {e : ℤ} {count : ℕ}

namespace RoundingMode

variable {mode store : RoundingMode}

/-! ## Numbers that are rounded alike -/

/-- Parts below the middle are rounded alike. -/
theorem roundsAway_of_below (mode : RoundingMode) (negative : Bool) {whole part divisor : ℕ}
    (positive : 0 < part) (below : 2 * part < divisor) :
    mode.roundsAway negative whole part divisor = mode.roundsAway negative whole 1 4 := by
  have apart : ¬ divisor < 2 * part ∧ ¬ divisor ≤ 2 * part ∧ ¬ divisor = 2 * part := by omega
  cases mode <;> simp [roundsAway, positive, apart]

/-- So are parts above the middle. -/
theorem roundsAway_of_above (mode : RoundingMode) (negative : Bool) {whole part divisor : ℕ}
    (above : divisor < 2 * part) :
    mode.roundsAway negative whole part divisor = mode.roundsAway negative whole 3 4 := by
  have positive : 0 < part := by omega
  cases mode <;> simp [roundsAway, positive, above, above.le]

/-- **All quotients between two halves** are rounded like the one in the middle. -/
theorem quotient_of_between (mode : RoundingMode) (negative : Bool) {k dividend divisor : ℕ}
    (lower : k * divisor < 2 * dividend) (upper : 2 * dividend < (k + 1) * divisor) :
    mode.quotient negative dividend divisor = mode.quotient negative (2 * k + 1) 4 := by
  have split := Nat.div_add_mod dividend divisor
  -- the half below is a whole number, or it lies between two of them
  obtain ⟨j, rfl | rfl⟩ := Nat.even_or_odd' k
  · have whole : dividend / divisor = j :=
      Nat.div_eq_of_lt_le (by nlinarith) (by nlinarith)
    have middle : (2 * (2 * j) + 1) / 4 = j ∧ (2 * (2 * j) + 1) % 4 = 1 := by omega
    rw [whole] at split
    rw [quotient, quotient, whole, middle.1, middle.2,
      roundsAway_of_below mode negative (by nlinarith) (by nlinarith)]
  · have whole : dividend / divisor = j :=
      Nat.div_eq_of_lt_le (by nlinarith) (by nlinarith)
    have middle : (2 * (2 * j + 1) + 1) / 4 = j ∧ (2 * (2 * j + 1) + 1) % 4 = 3 := by omega
    rw [whole] at split
    rw [quotient, quotient, whole, middle.1, middle.2,
      roundsAway_of_above mode negative (by nlinarith)]

/-- A number between two halves is rounded like the one in the middle. -/
theorem whole_of_between {k : ℕ} (lower : (k : ℚ) < 2 * x) (upper : 2 * x < k + 1) :
    mode.whole x = mode.quotient false (2 * k + 1) 4 := by
  have pos : 0 < x := by
    have := k.cast_nonneg (α := ℚ)
    linarith
  have den : (0 : ℚ) < x.den := by exact_mod_cast x.den_pos
  have eq := abs_eq_lowest x
  rw [abs_of_pos pos, eq_div_iff den.ne'] at eq
  rw [whole, if_neg (not_lt.mpr pos.le)]
  refine congrArg Nat.cast (mode.quotient_of_between false ?_ ?_)
  · have : (k * x.den : ℚ) < 2 * x.num.natAbs := by nlinarith
    exact_mod_cast this
  · have : (2 * x.num.natAbs : ℚ) < (k + 1) * x.den := by nlinarith
    exact_mod_cast this

/-- **Numbers with no half between them** are rounded alike. -/
theorem whole_eq_of_apart (pos : 0 < x) (le : x ≤ y)
    (apart : ∀ n : ℤ, ¬ (x ≤ (n : ℚ) / 2 ∧ (n : ℚ) / 2 ≤ y)) : mode.whole x = mode.whole y := by
  obtain ⟨k, hk⟩ := Int.eq_ofNat_of_zero_le (Int.floor_nonneg.mpr (by positivity : 0 ≤ 2 * x))
  have reached : (k : ℚ) ≤ 2 * x := by
    have := Int.floor_le (2 * x)
    rwa [hk] at this
  have next : 2 * x < k + 1 := by
    have := Int.lt_floor_add_one (2 * x)
    rwa [hk] at this
  have lower : (k : ℚ) < 2 * x := by
    refine lt_of_le_of_ne reached fun eq => apart k ?_
    push_cast
    constructor <;> linarith
  have upper : 2 * y < k + 1 := by
    refine lt_of_not_ge fun crossed => apart (k + 1) ?_
    push_cast
    constructor <;> linarith
  rw [whole_of_between lower next, whole_of_between (lower.trans_le (by linarith)) upper]

/-- A power of ten has a single digit. -/
theorem hasDigits_zpow (some : 1 ≤ count) (e : ℤ) : HasDigits count ((10 : ℚ) ^ e) :=
  ⟨1, e, by simp, by simpa using one_lt_pow₀ (by norm_num : (1 : ℤ) < 10) (by omega)⟩

/-- **Positive numbers with no half step between them** are rounded alike. -/
theorem toDigits_eq_of_halves (pos : 0 < x) (le : x ≤ y)
    (apart : ∀ n : ℤ, ¬ (x ≤ (n : ℚ) / 2 / 10 ^ placesFor count x ∧
      (n : ℚ) / 2 / 10 ^ placesFor count x ≤ y)) :
    mode.toDigits count x = mode.toDigits count y := by
  have below : x < 10 ^ (size x + 1) := (le_abs_self x).trans_lt (lt_zpow_size x)
  have reached : (10 : ℚ) ^ size x ≤ x := (zpow_size_le pos.ne').trans_eq (abs_of_pos pos)
  have step : (0 : ℚ) < 10 ^ placesFor count x := by positivity
  -- the next power of ten is a number of half steps
  have power : ((2 * 10 ^ count : ℤ) : ℚ) / 2 / 10 ^ placesFor count x = 10 ^ (size x + 1) := by
    have exponent : (size x + 1 : ℤ) = count - placesFor count x := by
      rw [placesFor]
      omega
    rw [exponent, zpow_sub₀ (by norm_num), zpow_natCast]
    push_cast
    ring
  have under : y < 10 ^ (size x + 1) := by
    refine lt_of_not_ge fun crossed => apart (2 * 10 ^ count) ?_
    rw [power]
    exact ⟨below.le, crossed⟩
  have same : size y = size x := by
    have pos' := pos.trans_le le
    exact size_eq (by rw [abs_of_pos pos']; exact reached.trans le) (by rwa [abs_of_pos pos'])
  have places : placesFor count y = placesFor count x := by rw [placesFor, placesFor, same]
  rw [toDigits, toDigits, places, atPlaces, atPlaces]
  refine congrArg (fun n : ℤ => (n : ℚ) / 10 ^ placesFor count x) ?_
  refine whole_eq_of_apart (by positivity) (mul_le_mul_of_nonneg_right le step.le) ?_
  rintro n ⟨lower, upper⟩
  rw [← le_div_iff₀ step] at lower
  rw [← div_le_iff₀ step] at upper
  exact apart n ⟨lower, upper⟩

/-- Positive numbers with no number of one digit more between them are rounded alike. -/
theorem toDigits_eq_of_apart_pos (pos : 0 < x) (le : x ≤ y)
    (apart : ∀ b, HasDigits (count + 1) b → ¬ (x ≤ b ∧ b ≤ y)) :
    mode.toDigits count x = mode.toDigits count y := by
  have below : x < 10 ^ (size x + 1) := (le_abs_self x).trans_lt (lt_zpow_size x)
  refine toDigits_eq_of_halves pos le ?_
  rintro n ⟨lower, upper⟩
  rcases lt_or_ge ((n : ℚ) / 2 / 10 ^ placesFor count x) (10 ^ (size x + 1)) with under | crossed
  · -- a half of a step is five steps of the next digit
    have grid : OnGrid (size x - count) ((n : ℚ) / 2 / 10 ^ placesFor count x) := by
      refine ⟨5 * n, ?_⟩
      have finer : size x - count = -placesFor count x - 1 := by
        rw [placesFor]
        omega
      rw [finer, zpow_sub_one₀ (by norm_num), zpow_neg]
      push_cast
      ring
    refine apart _ (grid.hasDigits ?_) ⟨lower, upper⟩
    rw [abs_of_pos (pos.trans_le lower)]
    exact under.trans_eq (congrArg _ (by push_cast; ring))
  · exact apart _ (hasDigits_zpow (by omega) (size x + 1)) ⟨below.le, crossed.trans upper⟩

/-- **Numbers with no number of one digit more between them** are rounded alike. -/
theorem toDigits_eq_of_apart (mode : RoundingMode)
    (apart : ∀ b, HasDigits (count + 1) b → b ∉ Set.uIcc x y) :
    mode.toDigits count x = mode.toDigits count y := by
  wlog le : x ≤ y generalizing x y
  · exact (this (fun b digits => Set.uIcc_comm x y ▸ apart b digits) (le_of_not_ge le)).symm
  rw [Set.uIcc_of_le le] at apart
  -- zero has no digits at all, and does not lie between the numbers either
  have zero : ¬ (x ≤ 0 ∧ 0 ≤ y) := apart 0 ⟨0, 0, by simp, by simp⟩
  rcases lt_or_ge 0 x with pos | nonpos
  · exact toDigits_eq_of_apart_pos pos le apart
  · have neg : 0 < -y := by
      refine neg_pos.mpr (lt_of_not_ge fun nonneg => zero ⟨nonpos, nonneg⟩)
    have turned : mode.mirror.toDigits count (-y) = mode.mirror.toDigits count (-x) := by
      refine toDigits_eq_of_apart_pos neg (neg_le_neg le) ?_
      rintro b digits ⟨lower, upper⟩
      exact apart (-b) digits.neg ⟨le_neg_of_le_neg upper, neg_le_of_neg_le lower⟩
    rw [toDigits_neg, toDigits_neg, mirror_mirror, neg_inj] at turned
    exact turned.symm

end RoundingMode

/-! ## Numbers at a distance -/

/-- **Numbers that keep a distance** from all numbers of some digits. -/
def FarFromDigits (count : ℕ) (distance x : ℚ) : Prop :=
  ∀ b, HasDigits count b → distance < |x - b|

/-- What is near to a number that keeps its distance is rounded like that number. -/
theorem FarFromDigits.toDigits_eq (far : FarFromDigits (count + 1) distance x)
    (near : |y - x| ≤ distance) (mode : RoundingMode) :
    mode.toDigits count y = mode.toDigits count x := by
  refine (mode.toDigits_eq_of_apart fun b digits between => ?_).symm
  have within := (Set.abs_sub_left_of_mem_uIcc between).trans near
  rw [abs_sub_comm] at within
  exact (far b digits).not_ge within

/-- **Fractions with a small denominator** are far from numbers of few digits that they do not
equal: a multiple of both lies on a grid, and there they are a step apart. -/
theorem farFromDigits_of_grid {multiple : ℕ} (some : 1 ≤ count) (counted : 0 < multiple)
    (pos : 0 < x) (grid : OnGrid e (multiple * x)) (fine : e ≤ RoundingMode.size x + 1 - count)
    (more : ¬ HasDigits count x) (small : multiple * distance < 10 ^ e) :
    FarFromDigits count distance x := by
  have reached : (10 : ℚ) ^ RoundingMode.size x ≤ x :=
    (RoundingMode.zpow_size_le pos.ne').trans_eq (abs_of_pos pos)
  have positive : (0 : ℚ) < multiple := by exact_mod_cast counted
  -- from the power of ten below the number on, numbers of few digits lie on the grid
  have apart : ∀ b, HasDigits count b → (10 : ℚ) ^ RoundingMode.size x ≤ b →
      distance < |x - b| := by
    intro b digits low
    have grid' : OnGrid e (multiple * b) := by
      obtain ⟨m, eq⟩ := (digits.onGrid_of_le low).mono fine
      exact ⟨multiple * m, by rw [eq]; push_cast; ring⟩
    have steps : (10 : ℚ) ^ e ≤ multiple * |x - b| := by
      rcases lt_trichotomy x b with lt | rfl | gt
      · rw [abs_of_neg (sub_neg.mpr lt), neg_sub, mul_sub]
        exact grid.step_le_sub grid' (mul_lt_mul_of_pos_left lt positive)
      · exact absurd digits more
      · rw [abs_of_pos (sub_pos.mpr gt), mul_sub]
        exact grid'.step_le_sub grid (mul_lt_mul_of_pos_left gt positive)
    exact lt_of_mul_lt_mul_left (small.trans_le steps) positive.le
  intro b digits
  rcases le_or_gt ((10 : ℚ) ^ RoundingMode.size x) b with low | below
  · exact apart b digits low
  · refine (apart _ (RoundingMode.hasDigits_zpow some _) le_rfl).trans_le ?_
    rw [abs_of_nonneg (sub_nonneg.mpr reached)]
    exact (sub_le_sub_left below.le x).trans (le_abs_self _)

namespace RoundingMode

variable {mode store : RoundingMode}

/-! ## How far storing moves a number -/

/-- A number that lies below a power of ten is stored to a place that this power has room for. -/
theorem abs_stored_sub_le_of_fits (nearest : mode.isNearest = true) {places scale : ℕ}
    (le : places ≤ scale) (room : places = 0 ∨ mode.fits x places) :
    |mode.stored x scale - x| ≤ 10 ^ (-(places : ℤ)) / 2 := by
  induction scale with
  | zero =>
      obtain rfl := Nat.le_zero.mp le
      exact abs_atPlaces_sub_le nearest 0 x
  | succ scale ih =>
      rw [stored]
      split
      · refine (abs_atPlaces_sub_le nearest _ x).trans ?_
        have power : (10 : ℚ) ^ (-((scale + 1 : ℕ) : ℤ)) ≤ 10 ^ (-(places : ℤ)) :=
          zpow_le_zpow_right₀ (by norm_num) (by omega)
        linarith
      · next full =>
          rcases le.lt_or_eq with lt | rfl
          · exact ih (Nat.le_of_lt_succ lt)
          · exact absurd (room.resolve_left (Nat.succ_ne_zero scale)) full

/-- A number below a power of ten is stored with at least 28 digits from there on, or with all
places. -/
theorem abs_stored_sub_le_of_lt (nearest : mode.isNearest = true) {k : ℤ}
    (below : |x| < 10 ^ (k + 1)) :
    |mode.stored x maxPlaces - x| ≤ 10 ^ max (-(maxPlaces : ℤ)) (k - 27) / 2 := by
  have places : (maxPlaces : ℤ) = 28 := rfl
  obtain ⟨s, hs⟩ := Int.eq_ofNat_of_zero_le (le_max_left 0 (min (maxPlaces : ℤ) (27 - k)))
  have within : s ≤ maxPlaces := by omega
  have room : s = 0 ∨ mode.fits x s := by
    rcases Nat.eq_zero_or_pos s with zero | positive
    · exact .inl zero
    · have bound : |x * 10 ^ (s : ℤ)| ≤ ((10 ^ 28 : ℤ) : ℚ) := by
        have power : (10 : ℚ) ^ (k + 1 + s) ≤ 10 ^ (28 : ℤ) :=
          zpow_le_zpow_right₀ (by norm_num) (by omega)
        rw [zpow_add₀ (by norm_num)] at power
        rw [abs_mul, abs_of_pos (by positivity : (0 : ℚ) < 10 ^ (s : ℤ))]
        exact (mul_le_mul_of_nonneg_right below.le (by positivity)).trans (by exact_mod_cast power)
      exact .inr ((mode.abs_whole_le bound).trans_lt (by decide))
  refine (abs_stored_sub_le_of_fits nearest within room).trans ?_
  have power : (10 : ℚ) ^ (-(s : ℤ)) ≤ 10 ^ max (-(maxPlaces : ℤ)) (k - 27) :=
    zpow_le_zpow_right₀ (by norm_num) (by omega)
  exact div_le_div_of_nonneg_right power (by norm_num)

/-- **The last place** to which a number is stored at least. -/
def storedStep (x : ℚ) : ℚ :=
  10 ^ max (-(maxPlaces : ℤ)) (size x - 27)

/-- **Storing is off by half a place** at most. -/
theorem abs_stored_sub_le (nearest : mode.isNearest = true) (x : ℚ) :
    |mode.stored x maxPlaces - x| ≤ storedStep x / 2 :=
  abs_stored_sub_le_of_lt nearest (lt_zpow_size x)

/-- Rounding to the nearest number is not off by more than the number itself. -/
theorem abs_atPlaces_sub_le_abs (nearest : mode.isNearest = true) (places : ℤ) (x : ℚ) :
    |mode.atPlaces places x - x| ≤ |x| := by
  have scale : (0 : ℚ) < 10 ^ places := by positivity
  rcases lt_or_ge |x * 10 ^ places - (0 : ℤ)| (1 / 2) with near | far
  · rw [atPlaces, whole_of_near nearest near]
    simp
  · rw [Int.cast_zero, sub_zero, abs_mul, abs_of_pos scale] at far
    refine (abs_atPlaces_sub_le nearest places x).trans ?_
    rw [zpow_neg, inv_eq_one_div, div_div, div_le_iff₀ (by positivity)]
    linarith

/-- Neither is storing. -/
theorem abs_stored_sub_le_abs (nearest : mode.isNearest = true) (x : ℚ) (scale : ℕ) :
    |mode.stored x scale - x| ≤ |x| := by
  induction scale with
  | zero => exact abs_atPlaces_sub_le_abs nearest 0 x
  | succ scale ih =>
      rw [stored]
      split
      · exact abs_atPlaces_sub_le_abs nearest _ x
      · exact ih

/-- **How far a quotient can be off** when its dividend is stored, and then itself. -/
def quotientSlack (dividend divisor : ℚ) : ℚ :=
  (storedStep dividend / |divisor| + 10 * storedStep (dividend / divisor)) / 2

/-- **A quotient of a stored number.** -/
theorem abs_stored_quotient_sub_le (first : store.isNearest = true) (second : mode.isNearest = true)
    (dividend divisor : ℚ) :
    |mode.stored (store.stored dividend maxPlaces / divisor) maxPlaces - dividend / divisor| ≤
      quotientSlack dividend divisor := by
  have places : (maxPlaces : ℤ) = 28 := rfl
  generalize stored : store.stored dividend maxPlaces = kept
  have near : |kept - dividend| ≤ storedStep dividend / 2 :=
    stored ▸ abs_stored_sub_le first dividend
  have twice : |kept| ≤ 2 * |dividend| := by
    have off : |kept - dividend| ≤ |dividend| := stored ▸ abs_stored_sub_le_abs first dividend _
    have sum := abs_add_le (kept - dividend) dividend
    rw [sub_add_cancel] at sum
    linarith
  -- the stored number is at most twice as large, so that its quotient has one place less at most
  have below : |kept / divisor| < 10 ^ (size (dividend / divisor) + 1 + 1) := by
    have next := lt_zpow_size (dividend / divisor)
    rw [abs_div] at next ⊢
    rw [zpow_add_one₀ (by norm_num)]
    have nonneg : 0 ≤ |dividend| / |divisor| := by positivity
    have double : |kept| / |divisor| ≤ 2 * (|dividend| / |divisor|) := by
      rw [← mul_div_assoc]
      exact div_le_div_of_nonneg_right twice (abs_nonneg divisor)
    linarith
  have step : (10 : ℚ) ^ max (-(maxPlaces : ℤ)) (size (dividend / divisor) + 1 - 27) ≤
      10 * storedStep (dividend / divisor) := by
    rw [storedStep, ← zpow_one_add₀ (by norm_num)]
    exact zpow_le_zpow_right₀ (by norm_num) (by omega)
  have quotient : |kept / divisor - dividend / divisor| ≤ storedStep dividend / 2 / |divisor| := by
    rw [← sub_div, abs_div]
    exact div_le_div_of_nonneg_right near (abs_nonneg divisor)
  calc |mode.stored (kept / divisor) maxPlaces - dividend / divisor|
      ≤ |mode.stored (kept / divisor) maxPlaces - kept / divisor| +
          |kept / divisor - dividend / divisor| := abs_sub_le _ _ _
    _ ≤ 10 * storedStep (dividend / divisor) / 2 + storedStep dividend / 2 / |divisor| := by
        have second := abs_stored_sub_le_of_lt second below
        linarith
    _ = quotientSlack dividend divisor := by
        rw [quotientSlack]
        ring

end RoundingMode

end Tariff
