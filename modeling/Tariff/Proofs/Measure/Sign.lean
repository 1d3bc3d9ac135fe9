import Mathlib.Tactic.LinearCombination
import Tariff.Proofs.Measure.Weight

/-!
# The sign of a conversion

A multiple of a unit by a negative factor turns its values round.  How often a unit is
turned round is counted over its terms, and a conversion between two units that are
turned round equally often keeps the sign of every value.

## Main definitions

* `MeasureUnit.turns` — how often a unit is turned round
* `Reduction.IsTurned` — fractions with the sign of so many turns

## Main statements

* `MeasureUnit.reduce?_isTurned` — the fraction of a reduction has the sign of its unit
* `MeasureUnit.conversionTo_sign` — units turned round equally often are converted by a
  fraction that is not negative
* `Conversion.apply_sign` — such a conversion keeps the sign of a value

## Design notes

A product that is stored is a multiple of the exact product by a number that is not
negative, and zero only if nothing is left of it.  That is all that is used of storing, so
that a fraction cut on either side still has the sign it should have, or none.
-/

namespace Tariff

/-! ## Stored products -/

/-- What is stored of a number has its sign, or none. -/
theorem RoundingMode.exists_stored_eq {mode : RoundingMode} (nearest : mode.isNearest = true)
    (x : ℚ) (scale : ℕ) : ∃ t : ℚ, 0 ≤ t ∧ mode.stored x scale = t * x := by
  rcases eq_or_ne x 0 with rfl | ne
  · exact ⟨0, le_rfl, by simp⟩
  · refine ⟨mode.stored x scale / x, ?_, (div_mul_cancel₀ _ ne).symm⟩
    rcases ne.lt_or_gt with neg | pos
    · have turned := stored_nonneg (isNearest_mirror nearest) scale (neg_nonneg.mpr neg.le)
      rw [stored_neg, mirror_mirror] at turned
      exact div_nonneg_of_nonpos (neg_nonneg.mp turned) neg.le
    · exact div_nonneg (stored_nonneg nearest scale pos.le) pos.le

namespace Decimal

variable {a b c start factor result : Decimal} {count : ℕ}

/-- A product has the sign of the exact product, or none. -/
theorem exists_multiply?_eq (h : a.multiply? b = some c) :
    ∃ t : ℚ, 0 ≤ t ∧ c.toRat = t * (a.toRat * b.toRat) := by
  rw [toRat_multiply? h]
  exact RoundingMode.exists_stored_eq rfl _ _

/-- So has a repeated product. -/
theorem exists_times?_eq (h : start.times? factor count = some result) :
    ∃ t : ℚ, 0 ≤ t ∧ result.toRat = t * (start.toRat * factor.toRat ^ count) := by
  induction count generalizing start with
  | zero =>
      rw [times?] at h
      exact ⟨1, zero_le_one, by simp [← Option.some.inj h]⟩
  | succ count ih =>
      rw [times?_succ] at h
      obtain ⟨next, hnext, h⟩ := Option.bind_eq_some_iff.mp h
      obtain ⟨s, hs, first⟩ := exists_multiply?_eq hnext
      obtain ⟨t, ht, rest⟩ := ih h
      refine ⟨t * s, mul_nonneg ht hs, ?_⟩
      rw [rest, first, pow_succ']
      ring

end Decimal

/-! ## How often a unit is turned round -/

namespace MeasureUnit

mutual

/-- **Turns.**  How often a unit is turned round. -/
def turns : MeasureUnit → Int
  | primitive _ _ _ => 0
  | scaled _ _ base factor => base.turns + if factor.toRat < 0 then 1 else 0
  | derived terms _ _ _ => turnsOfTerms terms

/-- How often a product of powers is turned round. -/
def turnsOfTerms : List (MeasureUnit × Int) → Int
  | [] => 0
  | (unit, e) :: rest => unit.turns * e + turnsOfTerms rest

end

theorem turnsOfTerms_eq_weigh (terms : List (MeasureUnit × Int)) :
    turnsOfTerms terms = weigh turns terms := by
  induction terms with
  | nil => rw [turnsOfTerms, weigh]
  | cons head rest ih => rw [turnsOfTerms, weigh, ih]

/-- The number of turns is a weight. -/
theorem isWeight_turns : IsWeight turns where
  alike a b same := by
    have holds : HoldsAlike (fun a b => a.turns = b.turns)
        (fun us vs => turnsOfTerms us = turnsOfTerms vs) :=
      { primitive := fun _ _ _ => rfl
        scaled := fun _ _ _ _ _ _ base value => by rw [turns, turns, base, value]
        derived := fun _ _ _ _ _ terms => by rw [turns, turns, terms]
        nil := rfl
        cons := fun _ _ _ _ _ unit rest => by rw [turnsOfTerms, turnsOfTerms, unit, rest] }
    exact holds.of_same a b same
  plain unit plain := by
    cases unit with
    | primitive _ _ _ => rw [turns]
    | scaled _ _ _ _ => cases plain
    | derived _ _ _ _ => cases plain
  derived terms _ _ _ := by rw [turns, turnsOfTerms_eq_weigh]

/-- A factor that is not turned round turns no product round. -/
theorem turns_multiply {a b : MeasureUnit} (upright : b.turns = 0) :
    (a.multiply b).turns = a.turns := by
  rw [multiply, isWeight_turns.product, weigh, weigh_singleton, upright, Int.mul_one, Int.add_zero]

end MeasureUnit

/-! ## Reductions -/

namespace Reduction

/-- **The sign of a reduction** is that of so many turns, or none. -/
def IsTurned (r : Reduction) (turns : ℤ) : Prop :=
  0 ≤ (-1 : ℚ) ^ turns * (r.numerator.toRat * r.denominator.toRat)

/-- A power turns as often as it is counted, on either side of the line. -/
theorem neg_one_zpow_natAbs (m e : ℤ) : (-1 : ℚ) ^ (m * e) = ((-1) ^ m) ^ e.natAbs := by
  rw [zpow_mul]
  rcases Int.natAbs_eq e with eq | eq
  · conv_lhs => rw [eq]
    exact zpow_natCast _ _
  · conv_lhs => rw [eq]
    rw [zpow_neg, zpow_natCast, ← inv_pow, ← inv_zpow, inv_neg_one]

theorem isTurned_identity : identity.IsTurned 0 := by
  simp [IsTurned, identity]

/-- A power of another reduction adds its turns. -/
theorem IsTurned.absorb? {r other next : Reduction} {m k e : ℤ} (hr : r.IsTurned m)
    (ho : other.IsTurned k) (h : r.absorb? other e = some next) : next.IsTurned (m + k * e) := by
  obtain ⟨above, below, -⟩ := absorb?_eq_some.mp h
  obtain ⟨s, hs, numerator⟩ := Decimal.exists_times?_eq above
  obtain ⟨t, ht, denominator⟩ := Decimal.exists_times?_eq below
  have sides : (if 0 < e then other.numerator else other.denominator).toRat *
      (if 0 < e then other.denominator else other.numerator).toRat =
        other.numerator.toRat * other.denominator.toRat := by
    split
    · rfl
    · exact mul_comm _ _
  have power := pow_nonneg ho e.natAbs
  rw [mul_pow, ← neg_one_zpow_natAbs, ← sides, mul_pow] at power
  rw [IsTurned, numerator, denominator, zpow_add₀ (by norm_num)]
  have product := mul_nonneg (mul_nonneg hs ht) (mul_nonneg hr power)
  refine product.trans_eq ?_
  ring

end Reduction

namespace MeasureUnit

mutual

/-- **The fraction of a reduction** has the sign of its unit, or none. -/
theorem reduce?_isTurned : (unit : MeasureUnit) → {r : Reduction} → unit.reduce? = some r →
    r.IsTurned unit.turns
  | primitive symbol name dimension, r, h => by
    rw [turns]
    rw [reduce?] at h
    split at h <;> obtain rfl := Option.some.inj h <;> exact Reduction.isTurned_identity
  | scaled _ _ base factor, r, h => by
    obtain ⟨reduced, hreduced, numerator, hnumerator, rfl⟩ := reduce?_scaled.mp h
    have turned := reduce?_isTurned base hreduced
    obtain ⟨t, ht, product⟩ := Decimal.exists_multiply?_eq hnumerator
    have sign : (0 : ℚ) ≤ (-1) ^ (if factor.toRat < 0 then 1 else 0 : ℤ) * factor.toRat := by
      split
      · next negative => simpa using negative.le
      · next upright => simpa using upright
    rw [turns, Reduction.IsTurned, product, zpow_add₀ (by norm_num)]
    refine (mul_nonneg ht (mul_nonneg turned sign)).trans_eq ?_
    ring
  | derived terms _ _ _, r, h => by
    rw [reduce?] at h
    rw [turns, ← Int.zero_add (turnsOfTerms terms)]
    exact reduceTerms?_isTurned terms Reduction.isTurned_identity h

/-- Terms that are absorbed add their turns. -/
theorem reduceTerms?_isTurned : (terms : List (MeasureUnit × Int)) → {start r : Reduction} →
    {m : ℤ} → start.IsTurned m → reduceTerms? terms start = some r →
      r.IsTurned (m + turnsOfTerms terms)
  | [], start, r, m, hstart, h => by
    rw [reduceTerms?] at h
    rw [turnsOfTerms, Int.add_zero]
    exact Option.some.inj h ▸ hstart
  | (unit, e) :: rest, start, r, m, hstart, h => by
    obtain ⟨other, hother, next, absorbed, h⟩ := reduceTerms?_cons.mp h
    rw [turnsOfTerms, ← Int.add_assoc]
    exact reduceTerms?_isTurned rest (hstart.absorb? (reduce?_isTurned unit hother) absorbed) h

end

/-! ## Conversions -/

/-- **Units turned round equally often** are converted by a fraction that is not negative. -/
theorem conversionTo_sign {source target : MeasureUnit} {conversion : Conversion}
    (turned : source.turns = target.turns) (h : source.conversionTo target = .ok conversion) :
    0 ≤ conversion.numerator.toRat * conversion.denominator.toRat := by
  have identity : 0 ≤ Conversion.identity.numerator.toRat * Conversion.identity.denominator.toRat := by
    simp [Conversion.identity]
  rcases conversionTo_eq_ok h with
    ⟨-, rfl⟩ | ⟨r, t, hr, ht, -, numerator, denominator, hn, hd, rfl⟩
  · exact identity
  · rw [Conversion.ofFraction]
    split
    · exact identity
    · obtain ⟨a, ha, above⟩ := Decimal.exists_multiply?_eq hn
      obtain ⟨b, hb, below⟩ := Decimal.exists_multiply?_eq hd
      have sourceSign := reduce?_isTurned source hr
      have targetSign := reduce?_isTurned target ht
      rw [turned] at sourceSign
      -- the turns of both units cancel
      have cancel : (-1 : ℚ) ^ target.turns * (-1) ^ target.turns = 1 := by
        rw [← mul_zpow, neg_one_mul, neg_neg, one_zpow]
      have product := mul_nonneg (mul_nonneg ha hb) (mul_nonneg sourceSign targetSign)
      rw [above, below]
      refine product.trans_eq ?_
      linear_combination (a * b * r.numerator.toRat * r.denominator.toRat * t.numerator.toRat *
        t.denominator.toRat) * cancel

end MeasureUnit

/-- **A conversion by a fraction that is not negative** keeps the sign, however its quotient is
stored. -/
theorem Conversion.apply_sign {c : Conversion} {p : Precision} {value result : Decimal}
    (sign : 0 ≤ c.numerator.toRat * c.denominator.toRat) (nonneg : 0 ≤ value.toRat)
    (h : c.apply p value = .ok result) : 0 ≤ result.toRat := by
  rcases apply_eq_ok h with ⟨-, rfl⟩ | ⟨-, scaled, hscaled, divided⟩
  · exact nonneg
  · obtain ⟨t, ht, product⟩ := Decimal.exists_multiply?_eq hscaled
    have quotient : 0 ≤ scaled.toRat / c.denominator.toRat := by
      rw [← mul_div_mul_right _ _ (Decimal.toRat_ne_zero (Precision.isZero_of_divide divided)), product]
      refine div_nonneg ((mul_nonneg ht (mul_nonneg nonneg sign)).trans_eq ?_) (mul_self_nonneg _)
      ring
    rw [Precision.toRat_divide_by divided]
    exact p.mode.toDigits_nonneg p.digits
      (RoundingMode.stored_nonneg (Decimal.isNearest_quotientMode _ _) maxPlaces quotient)

end Tariff
