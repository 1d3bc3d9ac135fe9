import Tariff.Proofs.Pricing.Ranking

/-!
# Places between the extremes

The place of a total between the lowest and the highest is a quotient of two
rounded differences, rounded to two digits after the point.

## Main definitions

* `Precision.place` — the place of a number between a lowest number and the end
  of a range

## Main statements

* `toRat_normalize` — the place of a total on numbers
* `Precision.place_mono` — places stand in the order of numbers
* `Precision.exists_hundredths`, `Precision.place_start`, `Precision.place_end` —
  places are hundredths, from zero to one
* `Schedule.Built.normalized_le` — places stand in the order of totals
* `Schedule.build_normalized` — all there is to know about the places in a
  schedule

## Design notes

The quotient is at most one, so that its digits never overrun and it is stored
half-even whatever the divisor.  Where all totals are equal the range is zero,
and so is the quotient by it: that case needs no words of its own on numbers.
-/

namespace Tariff

/-- **Place of a number** in a range that starts at a lowest number. -/
def Precision.place (p : Precision) (low range x : ℚ) : ℚ :=
  max 0 (min 1 (p.mode.atPlaces normalizedPlaces (p.keep (p.keep (x - low) / range))))

/-- Places stand in the order of numbers. -/
theorem Precision.place_mono (p : Precision) (low : ℚ) {range : ℚ} (nonneg : 0 ≤ range) :
    Monotone (p.place low range) := by
  intro x y le
  have above : p.keep (x - low) ≤ p.keep (y - low) := p.keep_mono (sub_le_sub_right le low)
  have ratio := p.keep_mono (div_le_div_of_nonneg_right above nonneg)
  unfold place
  exact max_le_max_left 0 (min_le_min_left 1 (p.mode.atPlaces_mono normalizedPlaces ratio))

/-- **Places are hundredths** between zero and one. -/
theorem Precision.exists_hundredths (p : Precision) (low range x : ℚ) :
    ∃ k : ℕ, k ≤ 100 ∧ p.place low range x = k / 100 := by
  unfold place RoundingMode.atPlaces
  generalize p.mode.whole (p.keep (p.keep (x - low) / range) * 10 ^ (normalizedPlaces : ℤ)) = n
  have hundred : (10 : ℚ) ^ (normalizedPlaces : ℤ) = 100 := by norm_num [normalizedPlaces]
  rw [hundred]
  rcases le_or_gt n 0 with below | positive
  · refine ⟨0, by decide, ?_⟩
    have nonpos : (n : ℚ) / 100 ≤ 0 := div_nonpos_of_nonpos_of_nonneg (by exact_mod_cast below)
      (by norm_num)
    rw [min_eq_right (nonpos.trans zero_le_one), max_eq_left nonpos]
    simp
  · obtain ⟨k, rfl⟩ := Int.eq_ofNat_of_zero_le positive.le
    rcases le_or_gt k 100 with within | above
    · refine ⟨k, within, ?_⟩
      have atMost : ((k : ℤ) : ℚ) / 100 ≤ 1 := by
        rw [div_le_one (by norm_num)]
        exact_mod_cast within
      rw [min_eq_right atMost, max_eq_right (by positivity), Int.cast_natCast]
    · refine ⟨100, le_rfl, ?_⟩
      have atLeast : 1 ≤ ((k : ℤ) : ℚ) / 100 := by
        rw [one_le_div (by norm_num)]
        exact_mod_cast above.le
      rw [min_eq_left atLeast, max_eq_right zero_le_one]
      norm_num

/-- The lowest number has place zero. -/
theorem Precision.place_start (p : Precision) (low range : ℚ) : p.place low range low = 0 := by
  unfold place
  rw [sub_self, p.keep_zero, zero_div, p.keep_zero, RoundingMode.atPlaces_zero,
    min_eq_right zero_le_one, max_self]

/-- The number at the end of the range has place one. -/
theorem Precision.place_end (p : Precision) {low high : ℚ} (nonzero : p.keep (high - low) ≠ 0) :
    p.place low (p.keep (high - low)) high = 1 := by
  have one : p.keep 1 = 1 := by
    exact_mod_cast p.keep_digit (n := 1) (by norm_num)
  have stays : p.mode.atPlaces normalizedPlaces 1 = 1 :=
    p.mode.atPlaces_of_whole (n := 100) (by norm_num [normalizedPlaces])
  unfold place
  rw [div_self nonzero, one, stays, min_self, max_eq_right zero_le_one]

theorem toRat_clampToUnit (d : Decimal) : (clampToUnit d).toRat = max 0 (min 1 d.toRat) := by
  unfold clampToUnit
  split
  · next below =>
      rw [Decimal.below_iff, Decimal.toRat_zero] at below
      rw [Decimal.toRat_zero, max_eq_left ((min_le_right _ _).trans below.le)]
  · next notBelow =>
      rw [Decimal.below_iff, Decimal.toRat_zero, not_lt] at notBelow
      split
      · next above =>
          rw [Decimal.below_iff, Decimal.toRat_one] at above
          rw [Decimal.toRat_one, min_eq_left above.le, max_eq_right zero_le_one]
      · next notAbove =>
          rw [Decimal.below_iff, Decimal.toRat_one, not_lt] at notAbove
          rw [min_eq_right notAbove, max_eq_right notBelow]

/-- No difference exceeds the range, so that the quotient is at most one and stored
half-even. -/
theorem quotientHalfEven_of_within {p : Precision} {low range total difference : Decimal}
    (above : low.toRat ≤ total.toRat) (within : p.keep (total.toRat - low.toRat) ≤ range.toRat)
    (nonzero : ¬ range.isZero = true) (h : p.subtract total low = .ok difference) :
    Decimal.QuotientHalfEven difference range := by
  have value := Precision.toRat_subtract h
  have nonneg : 0 ≤ difference.toRat := value ▸ p.keep_nonneg (sub_nonneg.mpr above)
  have le : difference.toRat ≤ range.toRat := value ▸ within
  refine Decimal.quotientHalfEven_of_abs_le (Decimal.toRat_ne_zero nonzero) ?_
  rwa [abs_of_nonneg nonneg, abs_of_nonneg (nonneg.trans le)]

/-- **The place of a total on numbers**, for a total within the range. -/
theorem toRat_normalize {p : Precision} {low range total place : Decimal}
    (above : low.toRat ≤ total.toRat) (within : p.keep (total.toRat - low.toRat) ≤ range.toRat)
    (h : normalize p low range total = .ok place) :
    place.toRat = p.place low.toRat range.toRat total.toRat := by
  unfold normalize at h
  unfold Precision.place
  split at h
  · next zero =>
      obtain rfl := Except.ok.inj h
      rw [Decimal.toRat_eq_zero zero, div_zero, p.keep_zero, RoundingMode.atPlaces_zero,
        min_eq_right zero_le_one, max_self, Decimal.toRat_zero]
  · next nonzero =>
      obtain ⟨difference, hdifference, h⟩ := Outcome.bind_eq_ok.mp h
      obtain ⟨ratio, hratio, h⟩ := Outcome.bind_eq_ok.mp h
      obtain rfl := Outcome.pure_eq_ok.mp h
      have even := quotientHalfEven_of_within above within nonzero hdifference
      have places : normalizedPlaces ≤ maxPlaces := by decide
      rw [toRat_clampToUnit, Precision.roundPlaces, Decimal.toRat_roundPlaces _ places,
        Precision.toRat_divide even hratio, Precision.toRat_subtract hdifference]

namespace Schedule

variable {c : Contract} {s : Publication} {schedule : Schedule} {a b : Slot}

/-- A slot's place is that of its total. -/
theorem Built.toRat_normalized (built : Built c s schedule) (ha : a ∈ schedule.slots) :
    a.normalized.toRat = c.precision.place schedule.lowest.toRat
      (c.precision.keep (schedule.highest.toRat - schedule.lowest.toRat)) a.charge := by
  obtain ⟨k, here⟩ := List.mem_iff_getElem?.mp ha
  obtain ⟨point, -, -, slotFor⟩ := built.exists_point here
  obtain ⟨range, hrange, place⟩ := slotFor.normalized
  obtain ⟨low, -, lowest, least⟩ := built.exists_lowest
  obtain ⟨high, -, highest, greatest⟩ := built.exists_highest
  have above : schedule.lowest.toRat ≤ a.total.value.toRat := lowest ▸ least a ha
  have below : a.total.value.toRat ≤ schedule.highest.toRat := highest ▸ greatest a ha
  have value := Precision.toRat_subtract hrange
  rw [toRat_normalize above ?_ place, value]
  · rfl
  · rw [value]
    exact c.precision.keep_mono (sub_le_sub_right below _)

/-- **Places stand in the order of totals.** -/
theorem Built.normalized_le (built : Built c s schedule) (ha : a ∈ schedule.slots)
    (hb : b ∈ schedule.slots) (le : a.charge ≤ b.charge) :
    a.normalized.toRat ≤ b.normalized.toRat := by
  obtain ⟨low, -, lowest, least⟩ := built.exists_lowest
  obtain ⟨high, hhigh, highest, -⟩ := built.exists_highest
  have nonneg : 0 ≤ c.precision.keep (schedule.highest.toRat - schedule.lowest.toRat) := by
    rw [← lowest, ← highest]
    exact c.precision.keep_nonneg (sub_nonneg.mpr (least high hhigh))
  rw [built.toRat_normalized ha, built.toRat_normalized hb]
  exact c.precision.place_mono _ nonneg le

/-- **The range is not rounded to zero** unless all totals are equal. -/
theorem Built.range_pos_iff (built : Built c s schedule) :
    0 < c.precision.keep (schedule.highest.toRat - schedule.lowest.toRat) ↔
      schedule.lowest.toRat ≠ schedule.highest.toRat := by
  obtain ⟨low, -, lowest, least⟩ := built.exists_lowest
  obtain ⟨high, hhigh, highest, -⟩ := built.exists_highest
  have le : schedule.lowest.toRat ≤ schedule.highest.toRat := by
    rw [← lowest, ← highest]
    exact least high hhigh
  constructor
  · intro pos eq
    rw [eq, sub_self, c.precision.keep_zero] at pos
    exact lt_irrefl _ pos
  · intro ne
    have grid := schedule.highest.onGrid_toRat.sub schedule.lowest.onGrid_toRat
    exact c.precision.keep_pos grid (sub_pos.mpr (lt_of_le_of_ne le ne))

/-- A slot that no other is below has the lowest total. -/
theorem Built.charge_eq_lowest (built : Built c s schedule) (ha : a ∈ schedule.slots)
    (least : ∀ other ∈ schedule.slots, a.charge ≤ other.charge) :
    a.charge = schedule.lowest.toRat := by
  obtain ⟨low, mem, lowest, below⟩ := built.exists_lowest
  rw [← lowest]
  exact le_antisymm (least low mem) (below a ha)

/-- A slot that no other is above has the highest total. -/
theorem Built.charge_eq_highest (built : Built c s schedule) (ha : a ∈ schedule.slots)
    (greatest : ∀ other ∈ schedule.slots, other.charge ≤ a.charge) :
    a.charge = schedule.highest.toRat := by
  obtain ⟨high, mem, highest, above⟩ := built.exists_highest
  rw [← highest]
  exact le_antisymm (above a ha) (greatest high mem)

/-- The lowest totals have place zero. -/
theorem Built.normalized_eq_zero (built : Built c s schedule) (ha : a ∈ schedule.slots)
    (least : ∀ other ∈ schedule.slots, a.charge ≤ other.charge) : a.normalized.toRat = 0 := by
  rw [built.toRat_normalized ha, built.charge_eq_lowest ha least, Precision.place_start]

/-- The highest totals have place one, unless all are equal. -/
theorem Built.normalized_eq_one (built : Built c s schedule) (ha : a ∈ schedule.slots)
    (greatest : ∀ other ∈ schedule.slots, other.charge ≤ a.charge)
    (ne : schedule.lowest.toRat ≠ schedule.highest.toRat) : a.normalized.toRat = 1 := by
  rw [built.toRat_normalized ha, built.charge_eq_highest ha greatest]
  exact c.precision.place_end (built.range_pos_iff.mpr ne).ne'

/-- The range is known to be calculated, as the place of every slot is. -/
theorem Built.exists_range (built : Built c s schedule) :
    ∃ range, c.precision.subtract schedule.highest schedule.lowest = .ok range ∧
      (range.isZero = true ↔ schedule.lowest.toRat = schedule.highest.toRat) := by
  obtain ⟨slot, mem⟩ := List.exists_mem_of_ne_nil _ built.slots_ne_nil
  obtain ⟨k, here⟩ := List.mem_iff_getElem?.mp mem
  obtain ⟨point, -, -, slotFor⟩ := built.exists_point here
  obtain ⟨range, hrange, -⟩ := slotFor.normalized
  refine ⟨range, hrange, ?_⟩
  rw [Decimal.isZero_iff, Precision.toRat_subtract hrange]
  constructor
  · intro zero
    by_contra ne
    exact absurd zero (built.range_pos_iff.mpr ne).ne'
  · intro eq
    rw [eq, sub_self, c.precision.keep_zero]

/-- **Places in a schedule.**  They are hundredths between zero and one, zero for
the lowest totals and, unless all totals are equal, one for the highest, and they
stand in the order of totals.  The range of the totals is taken for zero only
where the lowest and the highest are one number. -/
theorem build_normalized (h : build c s = .ok schedule) :
    (∀ slot ∈ schedule.slots, 0 ≤ slot.normalized.toRat ∧ slot.normalized.toRat ≤ 1 ∧
      ∃ k : ℕ, slot.normalized.toRat = k / 100) ∧
    ((∀ a ∈ schedule.slots, ∀ b ∈ schedule.slots, a.charge = b.charge) →
      ∀ slot ∈ schedule.slots, slot.normalized.toRat = 0) ∧
    ((∃ a ∈ schedule.slots, ∃ b ∈ schedule.slots, a.charge ≠ b.charge) →
      (∀ slot ∈ schedule.slots, (∀ other ∈ schedule.slots, slot.charge ≤ other.charge) →
        slot.normalized.toRat = 0) ∧
      (∀ slot ∈ schedule.slots, (∀ other ∈ schedule.slots, other.charge ≤ slot.charge) →
        slot.normalized.toRat = 1) ∧
      ∀ a ∈ schedule.slots, ∀ b ∈ schedule.slots, a.charge ≤ b.charge →
        a.normalized.toRat ≤ b.normalized.toRat) ∧
    ∃ range, c.precision.subtract schedule.highest schedule.lowest = .ok range ∧
      (range.isZero = true ↔ schedule.lowest.toRat = schedule.highest.toRat) := by
  have built := built_of_build h
  refine ⟨?_, ?_, ?_, built.exists_range⟩
  · intro slot mem
    obtain ⟨k, le, eq⟩ := c.precision.exists_hundredths schedule.lowest.toRat
      (c.precision.keep (schedule.highest.toRat - schedule.lowest.toRat)) slot.charge
    rw [← built.toRat_normalized mem] at eq
    have atMost : (k : ℚ) ≤ 100 := by exact_mod_cast le
    refine ⟨?_, ?_, k, eq⟩
    · rw [eq]
      positivity
    · rw [eq, div_le_one (by norm_num)]
      exact atMost
  · intro flat slot mem
    exact built.normalized_eq_zero mem fun other hother => (flat slot mem other hother).le
  · rintro ⟨a, ha, b, hb, differ⟩
    refine ⟨fun slot mem => built.normalized_eq_zero mem, ?_,
      fun x hx y hy => built.normalized_le hx hy⟩
    intro slot mem greatest
    refine built.normalized_eq_one mem greatest ?_
    -- two different totals leave no room for equal extremes
    intro eq
    obtain ⟨low, -, lowest, least⟩ := built.exists_lowest
    obtain ⟨high, -, highest, above⟩ := built.exists_highest
    rw [← lowest, ← highest] at eq
    apply differ
    exact le_antisymm ((above a ha).trans (eq ▸ least b hb)) ((above b hb).trans (eq ▸ least a ha))

/-- Of three hours the second has place zero and the others have place one. -/
theorem build_normalized_threeHours : ∃ schedule first second third,
    build .twoRates .threeHours = .ok schedule ∧ schedule.slots = [first, second, third] ∧
      second.charge < first.charge ∧
        second.normalized.toRat = 0 ∧ first.normalized.toRat = 1 ∧ third.normalized.toRat = 1 := by
  obtain ⟨schedule, h⟩ := exists_threeHours
  obtain ⟨first, rest, slots, chargeFirst, charges⟩ := List.map_eq_cons_iff.mp (charges_threeHours h)
  obtain ⟨second, rest, rfl, chargeSecond, charges⟩ := List.map_eq_cons_iff.mp charges
  obtain ⟨third, rest, rfl, chargeThird, charges⟩ := List.map_eq_cons_iff.mp charges
  obtain rfl := List.map_eq_nil_iff.mp charges
  have cheaper : second.charge < first.charge := by
    rw [chargeFirst, chargeSecond]
    norm_num
  obtain ⟨-, -, differ, -⟩ := build_normalized h
  rw [slots] at differ
  obtain ⟨lowest, highest, -⟩ := differ ⟨second, by simp, first, by simp, cheaper.ne⟩
  refine ⟨schedule, first, second, third, h, slots, cheaper, lowest second (by simp) ?_,
    highest first (by simp) ?_, highest third (by simp) ?_⟩
  all_goals
    intro other mem
    simp only [List.mem_cons, List.not_mem_nil, or_false] at mem
    rcases mem with rfl | rfl | rfl <;> simp only [chargeFirst, chargeSecond, chargeThird] <;> norm_num

end Schedule

end Tariff
