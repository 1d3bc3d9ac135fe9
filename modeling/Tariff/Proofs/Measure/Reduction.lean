import Tariff.Proofs.Measure.Quantity
import Tariff.Proofs.Measure.Unit

/-!
# Reductions and conversions of positive units

## Main definitions

* `Reduction.IsNonneg` — a reduction by a fraction that is not negative

## Main statements

* `MeasureUnit.reduce?_nonneg` — positive units have such reductions
* `MeasureUnit.conversionTo_eq_ok` — how a conversion comes about
* `MeasureUnit.conversionTo_nonneg` — conversions between positive units

## Design notes

The factors of a positive unit are above zero, but their products need not be:
a product with too many places is stored as zero.  What remains is that no side
of the fraction is negative, and that is all that the order of converted values
asks for.
-/

namespace Tariff

/-- **A reduction by a fraction that is not negative** on either side. -/
structure Reduction.IsNonneg (r : Reduction) : Prop where
  /-- The numerator is not negative. -/
  numerator : 0 ≤ r.numerator.toRat
  /-- The denominator is not negative. -/
  denominator : 0 ≤ r.denominator.toRat

namespace Decimal

/-- Repeated products of numbers that are not negative are not negative. -/
theorem times?_nonneg {start factor result : Decimal} {count : ℕ} (hs : 0 ≤ start.toRat)
    (hf : 0 ≤ factor.toRat) (h : start.times? factor count = some result) : 0 ≤ result.toRat := by
  induction count generalizing start with
  | zero =>
      rw [times?] at h
      exact Option.some.inj h ▸ hs
  | succ count ih =>
      rw [times?_succ] at h
      obtain ⟨next, hnext, h⟩ := Option.bind_eq_some_iff.mp h
      exact ih (multiply?_nonneg hs hf hnext) h

end Decimal

namespace Reduction

theorem isNonneg_identity : identity.IsNonneg :=
  ⟨by simp [identity], by simp [identity]⟩

/-- A power of a reduction is absorbed side by side; a negative power exchanges the sides. -/
theorem absorb?_eq_some {r other next : Reduction} {e : ℤ} : r.absorb? other e = some next ↔
    r.numerator.times? (if 0 < e then other.numerator else other.denominator) e.natAbs =
        some next.numerator ∧
      r.denominator.times? (if 0 < e then other.denominator else other.numerator) e.natAbs =
          some next.denominator ∧
        next.roots = (r.roots ++ other.roots.scale e).collect := by
  unfold absorb?
  dsimp only
  constructor
  · intro h
    split at h
    · next numerator denominator above below =>
        obtain rfl := Option.some.inj h
        exact ⟨above, below, rfl⟩
    · cases h
  · rintro ⟨above, below, roots⟩
    rw [above, below]
    exact congrArg some (by rw [← roots])

theorem IsNonneg.absorb? {r other next : Reduction} {e : ℤ} (hr : r.IsNonneg)
    (ho : other.IsNonneg) (h : r.absorb? other e = some next) : next.IsNonneg := by
  obtain ⟨above, below, -⟩ := absorb?_eq_some.mp h
  refine ⟨Decimal.times?_nonneg hr.numerator ?_ above,
    Decimal.times?_nonneg hr.denominator ?_ below⟩
  · split
    · exact ho.numerator
    · exact ho.denominator
  · split
    · exact ho.denominator
    · exact ho.numerator

end Reduction

namespace MeasureUnit

/-- A multiple reduces to a multiple of what its base reduces to. -/
theorem reduce?_scaled {symbol name : String} {base : MeasureUnit} {factor : Decimal}
    {r : Reduction} : (scaled symbol name base factor).reduce? = some r ↔
      ∃ reduced, base.reduce? = some reduced ∧
        ∃ numerator, reduced.numerator.multiply? factor = some numerator ∧
          r = { reduced with numerator } := by
  rw [reduce?]
  cases base.reduce? with
  | none => simp
  | some reduced => simp [eq_comm]

/-- The first term of a product is absorbed before the others. -/
theorem reduceTerms?_cons {u : MeasureUnit} {e : Int} {rest : List (MeasureUnit × Int)}
    {start r : Reduction} : reduceTerms? ((u, e) :: rest) start = some r ↔
      ∃ other, u.reduce? = some other ∧ ∃ next, start.absorb? other e = some next ∧
        reduceTerms? rest next = some r := by
  rw [reduceTerms?]
  cases u.reduce? with
  | none => simp
  | some other =>
      dsimp only
      cases habsorbed : start.absorb? other e <;> simp [habsorbed]

mutual

/-- **Reductions of positive units** are not negative. -/
theorem reduce?_nonneg : (unit : MeasureUnit) → unit.isPositive = true → {r : Reduction} →
    unit.reduce? = some r → r.IsNonneg
  | primitive symbol name dimension, _, r, h => by
    rw [reduce?] at h
    split at h
    · exact Option.some.inj h ▸ Reduction.isNonneg_identity
    · obtain rfl := Option.some.inj h
      exact ⟨Reduction.isNonneg_identity.numerator, Reduction.isNonneg_identity.denominator⟩
  | scaled _ _ base factor, positive, r, h => by
    rw [isPositive, Bool.and_eq_true, Decimal.below_iff, Decimal.toRat_zero] at positive
    obtain ⟨reduced, hreduced, numerator, hnumerator, rfl⟩ := reduce?_scaled.mp h
    have nonneg := reduce?_nonneg base positive.2 hreduced
    exact ⟨Decimal.multiply?_nonneg nonneg.numerator positive.1.le hnumerator, nonneg.denominator⟩
  | derived terms _ _ _, positive, r, h => by
    rw [isPositive] at positive
    rw [reduce?] at h
    exact reduceTerms?_nonneg terms positive Reduction.isNonneg_identity h

/-- So are those of products of positive units. -/
theorem reduceTerms?_nonneg : (terms : List (MeasureUnit × Int)) → arePositive terms = true →
    {start r : Reduction} → start.IsNonneg → reduceTerms? terms start = some r → r.IsNonneg
  | [], _, start, r, hstart, h => by
    rw [reduceTerms?] at h
    exact Option.some.inj h ▸ hstart
  | (unit, e) :: rest, positive, start, r, hstart, h => by
    rw [arePositive, Bool.and_eq_true] at positive
    obtain ⟨other, hother, next, absorbed, h⟩ := reduceTerms?_cons.mp h
    have nonneg := hstart.absorb? (reduce?_nonneg unit positive.1 hother) absorbed
    exact reduceTerms?_nonneg rest positive.2 nonneg h

end

/-! ## Conversions -/

variable {source target : MeasureUnit} {conversion : Conversion}

/-- **How a conversion comes about.**  It is the identity between units built
alike, and otherwise a fraction made of the sides of two reductions. -/
theorem conversionTo_eq_ok (h : source.conversionTo target = .ok conversion) :
    (source.same target = true ∧ conversion = .identity) ∨
      ∃ r t, source.reduce? = some r ∧ target.reduce? = some t ∧ r.roots = t.roots ∧
        ∃ numerator denominator, r.numerator.multiply? t.denominator = some numerator ∧
          r.denominator.multiply? t.numerator = some denominator ∧
            conversion = .ofFraction numerator denominator := by
  unfold conversionTo at h
  split at h
  · next same => exact .inl ⟨same, (Except.ok.inj h).symm⟩
  · split at h
    · split at h
      · next r t hr ht =>
          unfold reducedConversion at h
          split at h
          · next roots =>
              split at h
              · next numerator denominator hn hd =>
                  exact .inr ⟨r, t, hr, ht, roots, numerator, denominator, hn, hd,
                    (Except.ok.inj h).symm⟩
              · cases h
          · cases h
      · cases h
    · cases h

/-- **Conversions between positive units** are not negative on either side. -/
theorem conversionTo_nonneg (hs : source.isPositive = true) (ht : target.isPositive = true)
    (h : source.conversionTo target = .ok conversion) :
    0 ≤ conversion.numerator.toRat ∧ 0 ≤ conversion.denominator.toRat := by
  have one : 0 ≤ Decimal.one.toRat := by simp
  rcases conversionTo_eq_ok h with
    ⟨-, rfl⟩ | ⟨r, t, hr, ht', -, numerator, denominator, hn, hd, rfl⟩
  · exact ⟨one, one⟩
  · have source := reduce?_nonneg _ hs hr
    have target := reduce?_nonneg _ ht ht'
    rw [Conversion.ofFraction]
    split
    · exact ⟨one, one⟩
    · exact ⟨Decimal.multiply?_nonneg source.numerator target.denominator hn,
        Decimal.multiply?_nonneg source.denominator target.numerator hd⟩

end MeasureUnit

end Tariff
