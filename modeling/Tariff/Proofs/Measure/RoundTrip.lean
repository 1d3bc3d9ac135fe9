import Tariff.Proofs.Measure.Nearest

/-!
# There and back

A rounded quotient is raised by a rounded share of itself, and the rounded sum is divided
again.  Three roundings lie between the quotient and what comes back.  Rounding to nearest
numbers, they are too small to be seen as long as the divisor is far enough above one.

## Main definitions

* `Precision.IsRounded` — what numbers can be rounded to
* `Precision.IsSteady` — rates at which nothing is seen of the roundings
* `Precision.ComesBack` — numbers that are found again

## Main statements

* `Precision.isRounded_of_keep` — what is kept of a number, wherever the point stands
* `Precision.keep_quotient_of_near` — what is divided back to a number
* `Precision.keep_sum_below`, `Precision.keep_sum_above` — how far the sum is off, before the
  next power of ten and behind it
* `Precision.comesBack_quotient` — rounded quotients come back at steady rates

## Design notes

Before the next power of ten the sum is off by half a step and what the share is off.  Divided,
this is less than half a step again if the divisor is not too small.  Behind it the steps are ten
times as large.  There all that was lost is not seen in them, so that the sum is the dividend from
which the quotient was taken, or that power of ten itself.
-/

namespace Tariff.Precision

variable {p : Precision} {a r s v x : ℚ} {k : ℤ}

/-! ## Rounded numbers -/

/-- **A rounded number** lies on the grid of the last digit that is kept, hardly more than half a
step away from the exact one, and is the exact one if that has no more digits. -/
structure IsRounded (p : Precision) (x v : ℚ) : Prop where
  /-- It has no digit behind the last one. -/
  grid : OnGrid (RoundingMode.size x + 1 - p.digits) v
  /-- Hardly more than half a step is lost. -/
  near : |v - x| ≤ 501 / 1000 * 10 ^ (RoundingMode.size x + 1 - p.digits)
  /-- Where there is nothing to drop, nothing is lost. -/
  exact : HasDigits p.digits x → v = x

theorem isRounded_zero (p : Precision) : p.IsRounded 0 0 where
  grid := ⟨0, by simp⟩
  near := by rw [sub_zero, abs_zero]; positivity
  exact := fun _ => rfl

/-- Zero is rounded to nothing else. -/
theorem IsRounded.eq_zero (h : p.IsRounded 0 v) : v = 0 :=
  h.exact ⟨0, 0, by simp, by simp⟩

/-- Moving the point changes the size by as many places. -/
theorem size_mul_zpow (pos : 0 < x) (j : ℤ) :
    RoundingMode.size (x * 10 ^ j) = RoundingMode.size x + j := by
  have power : (0 : ℚ) < 10 ^ j := by positivity
  refine RoundingMode.size_eq ?_ ?_
  · rw [zpow_add₀ (by norm_num), abs_mul, abs_of_pos power]
    exact mul_le_mul_of_nonneg_right (RoundingMode.zpow_size_le pos.ne') power.le
  · rw [add_right_comm, zpow_add₀ (by norm_num), abs_mul, abs_of_pos power]
    exact mul_lt_mul_of_pos_right (RoundingMode.lt_zpow_size x) power

/-- **What is kept of a number** is rounded, wherever the point stands. -/
theorem isRounded_of_keep (nearest : p.mode.isNearest = true) (few : p.digits ≤ 16) (j : ℤ)
    (pos : 0 < x) (within : -25 ≤ RoundingMode.size x + j + 1 - p.digits)
    (h : v * 10 ^ j = p.keep (x * 10 ^ j)) : p.IsRounded x v := by
  have power : (0 : ℚ) < 10 ^ j := by positivity
  have moved : 0 < x * 10 ^ j := mul_pos pos power
  have size := size_mul_zpow pos j
  have step : (10 : ℚ) ^ (RoundingMode.size x + j + 1 - p.digits) =
      10 ^ (RoundingMode.size x + 1 - p.digits) * 10 ^ j := by
    rw [← zpow_add₀ (by norm_num)]
    congr 1
    ring
  refine ⟨?_, ?_, fun digits => ?_⟩
  · obtain ⟨n, eq⟩ := p.onGrid_keep moved (by norm_num [maxPlaces]; omega)
    rw [size, step, ← h, ← mul_assoc] at eq
    exact ⟨n, mul_right_cancel₀ power.ne' eq⟩
  · have near := abs_keep_sub_le nearest few moved (by rwa [size])
    rw [size, step, ← h, ← sub_mul, abs_mul, abs_of_pos power, ← mul_assoc] at near
    exact le_of_mul_le_mul_right near power
  · obtain ⟨n, eq⟩ := digits.onGrid pos.ne'
    have grid : OnGrid (RoundingMode.size x + j + 1 - p.digits) (x * 10 ^ j) :=
      ⟨n, by rw [step, ← mul_assoc, ← eq]⟩
    have top : RoundingMode.size x + j + 1 - p.digits + p.digits = RoundingMode.size x + j + 1 := by
      ring
    have kept := p.keep_of_grid grid (by norm_num [maxPlaces]; omega) (by
      rw [top, ← size]
      exact RoundingMode.lt_zpow_size _)
    exact mul_right_cancel₀ power.ne' (h.trans kept)

/-- What is rounded does not fall below zero. -/
theorem IsRounded.nonneg (h : p.IsRounded x v) (nonneg : 0 ≤ x) : 0 ≤ v := by
  rcases nonneg.eq_or_lt with rfl | pos
  · exact h.eq_zero.ge
  have step : (10 : ℚ) ^ (RoundingMode.size x + 1 - p.digits) ≤ 10 ^ RoundingMode.size x :=
    zpow_le_zpow_right₀ (by norm_num) (by have := p.digits_pos; omega)
  have size : (10 : ℚ) ^ RoundingMode.size x ≤ x :=
    (RoundingMode.zpow_size_le pos.ne').trans_eq (abs_of_pos pos)
  linarith [(abs_le.mp h.near).1]

/-- A number below a power of ten is off by hardly more than half a step before it. -/
theorem IsRounded.near_of_lt (h : p.IsRounded x v) (pos : 0 < x) (high : x < 10 ^ (k + 1)) :
    |v - x| ≤ 501 / 1000 * 10 ^ (k + 1 - p.digits) := by
  have size := (RoundingMode.size_lt_iff pos.ne').mpr (by rwa [abs_of_pos pos])
  refine h.near.trans (mul_le_mul_of_nonneg_left ?_ (by norm_num))
  exact zpow_le_zpow_right₀ (by norm_num) (by omega)

/-- A number from a power of ten on has no digits behind the steps there. -/
theorem IsRounded.onGrid_of_le (h : p.IsRounded x v) (low : (10 : ℚ) ^ k ≤ x) :
    OnGrid (k + 1 - p.digits) v :=
  h.grid.mono (by have := RoundingMode.le_size low; omega)

/-- A tenth of a number has the same digits. -/
theorem hasDigits_tenth (grid : OnGrid (k + 1 - p.digits) a) (pos : 0 < a) (high : a < 10 ^ (k + 1)) :
    HasDigits p.digits (a * (1 / 10)) := by
  have moved : OnGrid (-1 + (k + 1 - p.digits)) (a * (1 / 10)) := by
    have shifted := grid.zpow_mul (-1)
    rwa [zpow_neg_one, mul_comm, ← one_div] at shifted
  have tenth : (10 : ℚ) ^ (-1 + (k + 1 - p.digits) + p.digits) = 10 ^ (k + 1) * (1 / 10) := by
    rw [one_div, ← zpow_sub_one₀ (by norm_num)]
    congr 1
    ring
  refine moved.hasDigits ?_
  rw [tenth, abs_of_pos (by positivity)]
  exact mul_lt_mul_of_pos_right high (by norm_num)

/-! ## Steady rates -/

/-- **A steady rate** is at most one, has a divisor of no more digits than are kept, and is zero, a
tenth or eleven hundredths at least. -/
structure IsSteady (p : Precision) (r : ℚ) : Prop where
  /-- Nothing is dropped of the divisor. -/
  digits : HasDigits p.digits (1 + r)
  /-- The divisor is far enough above one, or has no share that is rounded. -/
  apart : r = 0 ∨ r = 1 / 10 ∨ 11 / 100 ≤ r
  /-- The share is no more than the whole. -/
  le : r ≤ 1

theorem IsSteady.nonneg (h : p.IsSteady r) : 0 ≤ r := by
  rcases h.apart with rfl | rfl | large <;> linarith

/-- It is a tenth at least if it is not zero. -/
theorem IsSteady.tenth_le (h : p.IsSteady r) (ne : r ≠ 0) : 1 / 10 ≤ r := by
  rcases h.apart.resolve_left ne with rfl | large
  · exact le_rfl
  · linarith

/-- It has no digit behind those that are kept of its divisor. -/
theorem IsSteady.onGrid (h : p.IsSteady r) : OnGrid (1 - p.digits : ℤ) r := by
  have divisor := h.digits.onGrid_of_le (k := 0) (by simpa using h.nonneg)
  rw [zero_add] at divisor
  simpa using divisor.sub p.onGrid_one

/-! ## There and back -/

/-- **A number comes back** when it is raised by a rounded share of it and divided again. -/
def ComesBack (p : Precision) (r a : ℚ) : Prop :=
  ∀ v, p.IsRounded (a * r) v → p.keep (p.keep (a + v) / (1 + r)) = a

theorem comesBack_zero (p : Precision) (r : ℚ) : p.ComesBack r 0 := by
  intro v share
  rw [zero_mul] at share
  rw [share.eq_zero, add_zero, keep_zero, zero_div, keep_zero]

/-- Without a share a number of few digits is not changed. -/
theorem comesBack_of_keep (self : p.keep a = a) : p.ComesBack 0 a := by
  intro v share
  rw [mul_zero] at share
  rw [share.eq_zero, add_zero, add_zero, div_one, self, self]

section ThereAndBack

variable (nearest : p.mode.isNearest = true) (few : p.digits ≤ 16)
  (within : -25 ≤ k + 1 - p.digits)
include within

/-- **A power of ten** comes back, since its share has the digits of the rate. -/
theorem comesBack_zpow (steady : p.IsSteady r) : p.ComesBack r (10 ^ k) := by
  intro v share
  have power : (0 : ℚ) < 10 ^ k := by positivity
  have places : -(maxPlaces : ℤ) ≤ k + (1 - p.digits) := by norm_num [maxPlaces]; omega
  have nonneg := steady.nonneg
  have le := steady.le
  have below : ∀ {y : ℚ}, 0 ≤ y → y ≤ 2 → |10 ^ k * y| < 10 ^ (k + (1 - p.digits) + p.digits) := by
    intro y some two
    rw [← add_sub_assoc, sub_add_cancel, zpow_add_one₀ (by norm_num),
      abs_of_nonneg (mul_nonneg power.le some)]
    exact mul_lt_mul_of_pos_left (by linarith) power
  have exact : v = 10 ^ k * r :=
    share.exact ((steady.onGrid.zpow_mul k).hasDigits (below nonneg (by linarith)))
  have sum : p.keep (10 ^ k + v) = 10 ^ k * (1 + r) := by
    rw [exact, ← mul_one_add]
    exact p.keep_of_grid ((p.onGrid_one.add steady.onGrid).zpow_mul k) places
      (below (by linarith) (by linarith))
  have self := p.keep_of_grid (p.onGrid_one.zpow_mul k) places (below zero_le_one one_le_two)
  rw [mul_one] at self
  rw [sum, mul_div_cancel_right₀ _ (by linarith), self]

/-- Raised by a share with the same last digit, a number is exact before the next power of ten. -/
theorem keep_sum_of_large_share (grid : OnGrid (k + 1 - p.digits) a) (pos : 0 < a)
    (large : (10 : ℚ) ^ k ≤ x) (share : p.IsRounded x v) (below : a + v < 10 ^ (k + 1)) :
    p.keep (a + v) = a + v := by
  have nonneg := share.nonneg (le_trans (by positivity) large)
  refine p.keep_of_grid (grid.add (share.onGrid_of_le large)) ?_ ?_
  · norm_num [maxPlaces]
    omega
  · rw [sub_add_cancel, abs_of_nonneg (by linarith)]
    exact below

/-- A number between two powers of ten was kept of a number between these. -/
theorem size_eq_of_keep (low : (10 : ℚ) ^ k < p.keep x) (high : p.keep x < 10 ^ (k + 1)) :
    RoundingMode.size x = k := by
  have some := p.digits_pos
  have places : -(maxPlaces : ℤ) ≤ k := by norm_num [maxPlaces]; omega
  have reached : (10 : ℚ) ^ k ≤ x := by
    by_contra small
    rw [← p.keep_zpow places] at low
    exact low.not_ge (p.keep_mono (not_le.mp small).le)
  have below : x < 10 ^ (k + 1) := by
    by_contra large
    rw [← p.keep_zpow (e := k + 1) (by omega)] at high
    exact high.not_ge (p.keep_mono (not_lt.mp large))
  have pos : 0 < x := lt_of_lt_of_le (by positivity) reached
  exact RoundingMode.size_eq (by rwa [abs_of_pos pos]) (by rwa [abs_of_pos pos])

include nearest few

/-- **What is divided back to a number** is off by less than half a step of it, as many times as it
is divided. -/
theorem keep_quotient_of_near (grid : OnGrid (k + 1 - p.digits) a) (low : (10 : ℚ) ^ k < a)
    (high : a < 10 ^ (k + 1)) (nonneg : 0 ≤ r)
    (near : |x - a * (1 + r)| ≤ 499 / 1000 * 10 ^ (k + 1 - p.digits) * (1 + r)) :
    p.keep (x / (1 + r)) = a := by
  have step : (0 : ℚ) < 10 ^ (k + 1 - p.digits) := by positivity
  have divisor : 0 < 1 + r := by linarith
  have distance : |x / (1 + r) - a| ≤ 499 / 1000 * 10 ^ (k + 1 - p.digits) := by
    rw [← mul_div_cancel_right₀ a divisor.ne', ← sub_div, abs_div, abs_of_pos divisor,
      div_le_iff₀ divisor]
    exact near
  have apart := OnGrid.step_le_sub (.zpow (by have := p.digits_pos; omega)) grid low
  refine keep_eq_of_near nearest few within grid low.le high ?_ distance
  linarith [(abs_le.mp distance).1]

/-- Raised by a share with one digit more behind the point, it is off by half a step. -/
theorem abs_keep_sum_sub_le (grid : OnGrid (k + 1 - p.digits) a) (low : (10 : ℚ) ^ k ≤ a)
    (large : (10 : ℚ) ^ (k - 1) ≤ x) (share : p.IsRounded x v) (below : a + v < 10 ^ (k + 1)) :
    |p.keep (a + v) - (a + v)| ≤ 10 ^ (k + 1 - p.digits) / 2 := by
  have nonneg := share.nonneg (le_trans (by positivity) large)
  have pos : 0 < a := lt_of_lt_of_le (by positivity) low
  have size : RoundingMode.size (a + v) = k := by
    refine RoundingMode.size_eq ?_ ?_ <;> rw [abs_of_pos (by linarith)]
    · linarith
    · exact below
  have sum : OnGrid (k - p.digits) (a + v) := by
    have fine := share.onGrid_of_le large
    rw [sub_add_cancel] at fine
    exact (grid.mono (by omega)).add fine
  have room : |a + v| < mantissaLimit * 10 ^ (k - p.digits) := by
    have split : (10 : ℚ) ^ (k + 1) = 10 ^ ((p.digits : ℤ) + 1) * 10 ^ (k - p.digits) := by
      rw [← zpow_add₀ (by norm_num)]
      congr 1
      ring
    have digits : (10 : ℚ) ^ ((p.digits : ℤ) + 1) ≤ mantissaLimit := by
      have power : (10 : ℚ) ^ ((p.digits : ℤ) + 1) ≤ 10 ^ (17 : ℤ) :=
        zpow_le_zpow_right₀ (by norm_num) (by omega)
      exact power.trans (by norm_num [mantissaLimit])
    calc |a + v| = a + v := abs_of_pos (by linarith)
      _ < 10 ^ (k + 1) := below
      _ ≤ mantissaLimit * 10 ^ (k - p.digits) := by
          rw [split]
          exact mul_le_mul_of_nonneg_right digits (by positivity)
  have half := abs_keep_sub_le_half nearest sum (by norm_num [maxPlaces]; omega) room
  rwa [size] at half

/-- **A sum before the next power of ten** is off by less than half a step of the quotient. -/
theorem keep_sum_below (grid : OnGrid (k + 1 - p.digits) a) (low : (10 : ℚ) ^ k < a)
    (rate : r = 1 / 10 ∨ 11 / 100 ≤ r) (le : r ≤ 1) (share : p.IsRounded (a * r) v)
    (below : a + v < 10 ^ (k + 1)) :
    |p.keep (a + v) - a * (1 + r)| ≤ 499 / 1000 * 10 ^ (k + 1 - p.digits) * (1 + r) := by
  have step : (0 : ℚ) < 10 ^ (k + 1 - p.digits) := by positivity
  have pos : 0 < a := lt_trans (by positivity) low
  have least : 1 / 10 ≤ r := by rcases rate with rfl | large <;> linarith
  have sharePos : 0 < a * r := mul_pos pos (by linarith)
  have high : a < 10 ^ (k + 1) := by linarith [share.nonneg sharePos.le]
  have split : p.keep (a + v) - a * (1 + r) = p.keep (a + v) - (a + v) + (v - a * r) := by ring
  rw [split]
  refine (abs_add_le _ _).trans ?_
  rcases le_or_gt ((10 : ℚ) ^ k) (a * r) with large | small
  · -- nothing is dropped of the sum
    have near := share.near_of_lt sharePos ((mul_le_of_le_one_right pos.le le).trans_lt high)
    rw [keep_sum_of_large_share within grid pos large share below, sub_self, abs_zero,
      zero_add]
    nlinarith
  · have tenth : (10 : ℚ) ^ (k - 1) ≤ a * r := by
      rw [zpow_sub_one₀ (by norm_num)]
      nlinarith
    have half := abs_keep_sum_sub_le nearest few within grid low.le tenth share below
    rcases rate with rfl | large
    · -- a tenth has the digits of the quotient
      have digits := hasDigits_tenth grid pos high
      rw [share.exact digits, sub_self, abs_zero, add_zero]
      rw [share.exact digits] at half
      linarith
    · have near := share.near_of_lt (k := k - 1) sharePos (by rwa [sub_add_cancel])
      have fine : (10 : ℚ) ^ (k - 1 + 1 - p.digits) = 10 ^ (k + 1 - p.digits) / 10 := by
        rw [div_eq_mul_inv, ← zpow_sub_one₀ (by norm_num)]
        congr 1
        ring
      rw [fine] at near
      nlinarith

/-- **A sum behind the next power of ten** is the dividend again, or that power. -/
theorem keep_sum_above (high : a < 10 ^ (k + 1)) (pos : 0 < a) (rate : 0 < r) (le : r ≤ 1)
    (share : p.IsRounded (a * r) v) (digits : HasDigits p.digits s)
    (quotient : |s - a * (1 + r)| ≤ 501 / 1000 * 10 ^ (k + 1 - p.digits) * (1 + r))
    (reached : 10 ^ (k + 1) ≤ a + v) :
    p.keep (a + v) = s ∨ |p.keep (a + v) - a * (1 + r)| ≤ 501 / 1000 * 10 ^ (k + 1 - p.digits) := by
  have some := p.digits_pos
  have step : (0 : ℚ) < 10 ^ (k + 1 - p.digits) := by positivity
  have coarse : (10 : ℚ) ^ (k + 1 - p.digits) ≤ 10 ^ k := zpow_le_zpow_right₀ (by norm_num) (by omega)
  have next : (10 : ℚ) ^ (k + 1) = 10 ^ k * 10 := zpow_add_one₀ (by norm_num) _
  have top : (10 : ℚ) ^ (k + 1 + 1) = 10 ^ (k + 1) * 10 := zpow_add_one₀ (by norm_num) _
  have large : (10 : ℚ) ^ (k + 1 + 1 - p.digits) = 10 ^ (k + 1 - p.digits) * 10 := by
    rw [← zpow_add_one₀ (by norm_num)]
    congr 1
    ring
  have part : a * r ≤ a := mul_le_of_le_one_right pos.le le
  -- sum and dividend differ by hardly more than one and a half of the steps before the power
  have lost : 501 / 1000 * (10 : ℚ) ^ (k + 1 - p.digits) * (1 + r) ≤
      1002 / 1000 * 10 ^ (k + 1 - p.digits) := by
    nlinarith
  obtain ⟨shareLow, shareHigh⟩ :=
    abs_le.mp (share.near_of_lt (mul_pos pos rate) (part.trans_lt high))
  obtain ⟨quotientLow, quotientHigh⟩ := abs_le.mp quotient
  have seen : ∀ {y : ℚ}, OnGrid (k + 1 + 1 - p.digits) y → (10 : ℚ) ^ (k + 1) ≤ y →
      y < 10 ^ (k + 1 + 1) → |a + v - y| ≤ 499 / 100 * 10 ^ (k + 1 - p.digits) →
        p.keep (a + v) = y := by
    intro y grid low below near
    refine keep_eq_of_near nearest few (by omega) grid low below reached (near.trans_eq ?_)
    rw [large]
    ring
  rcases le_or_gt ((10 : ℚ) ^ (k + 1)) s with behind | before
  · refine .inl (seen (digits.onGrid_of_le behind) behind ?_ (abs_le.mpr ⟨?_, ?_⟩)) <;> linarith
  · have apart : (10 : ℚ) ^ (k + 1 - p.digits) ≤ 10 ^ (k + 1) - s :=
      (digits.onGrid_of_le (by linarith)).step_le_sub (.zpow (by omega)) before
    right
    rw [seen (.zpow (by omega)) le_rfl (by linarith) (abs_le.mpr (by constructor <;> linarith)), abs_le]
    constructor <;> linarith

/-- **A rounded quotient times its divisor** is off by half a step, as many times as it was
divided. -/
theorem abs_sub_quotient_le (divisor : 0 < 1 + r) (low : (10 : ℚ) ^ k < p.keep (s / (1 + r)))
    (high : p.keep (s / (1 + r)) < 10 ^ (k + 1)) :
    |s - p.keep (s / (1 + r)) * (1 + r)| ≤ 501 / 1000 * 10 ^ (k + 1 - p.digits) * (1 + r) := by
  have size : RoundingMode.size (s / (1 + r)) = k := size_eq_of_keep within low high
  have pos : 0 < s / (1 + r) := by
    by_contra none
    have lost := p.keep_mono (not_lt.mp none)
    rw [keep_zero] at lost
    have : (0 : ℚ) < 10 ^ k := by positivity
    linarith
  have near := abs_keep_sub_le nearest few pos (by rwa [size])
  rw [size, abs_sub_comm] at near
  have scaled : s - p.keep (s / (1 + r)) * (1 + r) = (s / (1 + r) - p.keep (s / (1 + r))) * (1 + r) := by
    rw [sub_mul, div_mul_cancel₀ _ divisor.ne']
  rw [scaled, abs_mul, abs_of_pos divisor]
  exact mul_le_mul_of_nonneg_right near divisor.le

/-- Between two powers of ten a quotient comes back, on whichever side of the next one the sum is. -/
theorem comesBack_of_between (kept : HasDigits p.digits s) (steady : p.IsSteady r) (ne : r ≠ 0)
    (eq : p.keep (s / (1 + r)) = a) (grid : OnGrid (k + 1 - p.digits) a) (low : (10 : ℚ) ^ k < a)
    (high : a < 10 ^ (k + 1)) : p.ComesBack r a := by
  intro v share
  have step : (0 : ℚ) < 10 ^ (k + 1 - p.digits) := by positivity
  have pos : 0 < a := lt_trans (by positivity) low
  have tenth := steady.tenth_le ne
  have quotient : |s - a * (1 + r)| ≤ 501 / 1000 * 10 ^ (k + 1 - p.digits) * (1 + r) := by
    rw [← eq] at low high ⊢
    exact abs_sub_quotient_le nearest few within (by linarith) low high
  have back : ∀ {x : ℚ}, |x - a * (1 + r)| ≤ 499 / 1000 * 10 ^ (k + 1 - p.digits) * (1 + r) →
      p.keep (x / (1 + r)) = a :=
    keep_quotient_of_near nearest few within grid low high steady.nonneg
  rcases lt_or_ge (a + v) (10 ^ (k + 1)) with below | reached
  · exact back (keep_sum_below nearest few within grid low (steady.apart.resolve_left ne) steady.le
      share below)
  · rcases keep_sum_above nearest few within high pos (by linarith) steady.le share kept quotient
      reached with same | near
    · rw [same, eq]
    · exact back (near.trans (by nlinarith))

end ThereAndBack

/-- **There and back.**  At a steady rate a rounded quotient comes back. -/
theorem comesBack_quotient (nearest : p.mode.isNearest = true) (few : p.digits ≤ 16)
    (kept : HasDigits p.digits s) (steady : p.IsSteady r)
    (eq : p.keep (s / (1 + r)) = a) (some : a = 0 ∨ (10 : ℚ) ^ (p.digits - 25 : ℤ) ≤ a) :
    p.ComesBack r a := by
  rcases some with rfl | large
  · exact p.comesBack_zero r
  have pos : 0 < a := lt_of_lt_of_le (by positivity) large
  have within : -25 ≤ RoundingMode.size a + 1 - p.digits := by
    have := RoundingMode.le_size large
    omega
  have digits : HasDigits p.digits a := eq ▸ p.mode.hasDigits_toDigits p.digits_pos _
  have grid : OnGrid (RoundingMode.size a + 1 - p.digits) a := digits.onGrid pos.ne'
  have low : (10 : ℚ) ^ RoundingMode.size a ≤ a :=
    (RoundingMode.zpow_size_le pos.ne').trans_eq (abs_of_pos pos)
  have high : a < 10 ^ (RoundingMode.size a + 1) :=
    (le_abs_self a).trans_lt (RoundingMode.lt_zpow_size a)
  rcases eq_or_ne r 0 with rfl | ne
  · refine comesBack_of_keep (p.keep_of_steps grid ?_ pos.le (by rw [sub_add_cancel]; exact high.le))
    norm_num [maxPlaces]
    omega
  rcases low.eq_or_lt with power | above
  · rw [← power]
    exact comesBack_zpow within steady
  · exact comesBack_of_between nearest few within kept steady ne eq grid above high

/-- The share of a number that is not tiny has its last digit at a place that can be stored. -/
theorem size_share (steady : p.IsSteady r) (some : a = 0 ∨ (10 : ℚ) ^ (p.digits - 25 : ℤ) ≤ a)
    (pos : 0 < a * r) : (p.digits - 26 : ℤ) ≤ RoundingMode.size (a * r) := by
  have large := some.resolve_left (left_ne_zero_of_mul pos.ne')
  have tenth := steady.tenth_le (right_ne_zero_of_mul pos.ne')
  refine RoundingMode.le_size ?_
  rw [show (p.digits - 26 : ℤ) = p.digits - 25 - 1 by ring, zpow_sub_one₀ (by norm_num), ← one_div]
  exact mul_le_mul large tenth (by norm_num) (le_trans (by positivity) large)

/-- A number that is not tiny is still not tiny when it is raised and divided. -/
theorem keep_quotient_large (steady : p.IsSteady r)
    (some : a = 0 ∨ (10 : ℚ) ^ (p.digits - 24 : ℤ) ≤ a) (share : p.IsRounded (a * r) v) :
    p.keep (p.keep (a + v) / (1 + r)) = 0 ∨
      (10 : ℚ) ^ (p.digits - 25 : ℤ) ≤ p.keep (p.keep (a + v) / (1 + r)) := by
  rcases some with rfl | large
  · left
    rw [zero_mul] at share
    rw [share.eq_zero, add_zero, keep_zero, zero_div, keep_zero]
  right
  have amount : 0 ≤ a := le_trans (by positivity) large
  have nonneg := share.nonneg (mul_nonneg amount steady.nonneg)
  have sum : (10 : ℚ) ^ (p.digits - 24 : ℤ) ≤ p.keep (a + v) := by
    rw [← p.keep_zpow (by norm_num [maxPlaces]; omega)]
    exact p.keep_mono (by linarith)
  have tenth : (10 : ℚ) ^ (p.digits - 24 : ℤ) = 10 ^ (p.digits - 25 : ℤ) * 10 := by
    rw [← zpow_add_one₀ (by norm_num)]
    congr 1
    ring
  have step : (0 : ℚ) < 10 ^ (p.digits - 25 : ℤ) := by positivity
  rw [← p.keep_zpow (e := p.digits - 25) (by norm_num [maxPlaces]; omega)]
  refine p.keep_mono ((le_div_iff₀ (by linarith [steady.nonneg])).mpr ?_)
  nlinarith [steady.le]

end Tariff.Precision
