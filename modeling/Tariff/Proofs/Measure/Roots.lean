import Tariff.Proofs.Measure.Weight

/-!
# Roots of units

A unit reduces to powers of root units.  Their exponents can be read off the unit
before anything is multiplied, and no way of writing a product changes them.

## Main definitions

* `MeasureUnit.degree` — the exponent of a root unit in a unit
* `MeasureUnit.HasRoots` — units that reduce to given powers of root units
* `Reduction.Alike` — reductions that differ in the way numbers are written

## Main statements

* `MeasureUnit.degree_product` — the exponents in a product are those of its
  factors, added up
* `MeasureUnit.exponentOf_roots` — a reduction has the exponents of the unit
* `MeasureUnit.reduce?_of_same` — units built alike reduce alike
* `MeasureUnit.HasRoots.of_conversionTo` — what converts has the same roots

## Design notes

Units built alike may write their factors differently, and then so do their
reductions.  Whether a product has room depends on numbers only, which is what
carries a reduction from one of the units to the other.
-/

namespace Tariff

/-! ## Exponents of root units -/

namespace MeasureUnit

mutual

/-- **Degree.**  The exponent of a root unit in a unit. -/
def degree : MeasureUnit → String → Int
  | primitive label name dimension, symbol =>
    if (primitive label name dimension).isOne then 0 else if label = symbol then 1 else 0
  | scaled _ _ base _, symbol => base.degree symbol
  | derived terms _ _ _, symbol => degreeOfTerms terms symbol

/-- The exponent of a root unit in a product of powers. -/
def degreeOfTerms : List (MeasureUnit × Int) → String → Int
  | [], _ => 0
  | (unit, e) :: rest, symbol => unit.degree symbol * e + degreeOfTerms rest symbol

end

/-- Units built alike have one degree. -/
theorem degree_eq_of_same (symbol : String) (a b : MeasureUnit) (h : a.same b = true) :
    a.degree symbol = b.degree symbol := by
  have holds : HoldsAlike (fun a b => a.degree symbol = b.degree symbol)
      (fun us vs => degreeOfTerms us symbol = degreeOfTerms vs symbol) :=
    { primitive := fun _ _ _ => rfl
      scaled := fun _ _ _ _ _ _ base _ => by rw [degree, degree, base]
      derived := fun _ _ _ _ _ terms => by rw [degree, degree, terms]
      nil := rfl
      cons := fun _ _ _ _ _ unit rest => by rw [degreeOfTerms, degreeOfTerms, unit, rest] }
  exact holds.of_same a b h

/-! ## The degree of a product -/

variable (symbol : String)

/-- The exponents of terms are added up like a weight. -/
theorem degreeOfTerms_eq_weigh (terms : List (MeasureUnit × Int)) :
    degreeOfTerms terms symbol = weigh (fun unit => unit.degree symbol) terms := by
  induction terms with
  | nil => rw [degreeOfTerms, weigh]
  | cons head rest ih => rw [degreeOfTerms, weigh, ih]

/-- The degree is a weight. -/
theorem isWeight_degree : IsWeight fun unit => unit.degree symbol where
  alike := degree_eq_of_same symbol
  plain unit plain := by
    cases unit with
    | primitive _ _ _ => rw [degree, if_pos plain]
    | scaled _ _ _ _ => cases plain
    | derived _ _ _ _ => cases plain
  derived terms _ _ _ := by rw [degree, degreeOfTerms_eq_weigh]

/-- **The degree of a product** is that of its factors, however they are nested. -/
theorem degree_product (terms : List (MeasureUnit × Int)) :
    (product terms).degree symbol = degreeOfTerms terms symbol := by
  rw [(isWeight_degree symbol).product, degreeOfTerms_eq_weigh]

/-- **In 32 bits** it is that of its factors up to a multiple of `2 ^ 32`. -/
theorem degree_heldProduct (terms : List (MeasureUnit × Int)) :
    (heldProduct terms).degree symbol ≡ degreeOfTerms terms symbol [ZMOD 2 ^ 32] := by
  rw [degreeOfTerms_eq_weigh]
  exact (isWeight_degree symbol).heldProduct terms

end MeasureUnit

/-! ## Reductions of units built alike -/

/-- **Reductions alike** have equal fractions side by side and the same roots. -/
structure Reduction.Alike (r s : Reduction) : Prop where
  /-- The numerators are one number. -/
  numerator : r.numerator.toRat = s.numerator.toRat
  /-- The denominators are one number. -/
  denominator : r.denominator.toRat = s.denominator.toRat
  /-- The roots are the same. -/
  roots : r.roots = s.roots

/-- A repeated product depends on numbers only. -/
theorem Decimal.exists_times? {a b x y result : Decimal} {count : ℕ} (ha : a.toRat = x.toRat)
    (hb : b.toRat = y.toRat) (h : a.times? b count = some result) :
    ∃ other, x.times? y count = some other ∧ result.toRat = other.toRat := by
  induction count generalizing a x with
  | zero =>
      rw [times?] at h
      exact ⟨x, rfl, Option.some.inj h ▸ ha⟩
  | succ count ih =>
      rw [times?_succ] at h
      obtain ⟨next, hnext, h⟩ := Option.bind_eq_some_iff.mp h
      obtain ⟨next', hnext', eq⟩ := exists_multiply? ha hb hnext
      obtain ⟨other, hother, same⟩ := ih eq h
      exact ⟨other, by rw [times?_succ, hnext', Option.bind_some, hother], same⟩

namespace Reduction

/-- What is alike is absorbed alike. -/
theorem Alike.absorb? {r s other other' next : Reduction} {e : ℤ} (h : r.Alike s)
    (ho : other.Alike other') (absorbed : r.absorb? other e = some next) :
    ∃ next', s.absorb? other' e = some next' ∧ next.Alike next' := by
  obtain ⟨above, below, roots⟩ := absorb?_eq_some.mp absorbed
  have top : (if 0 < e then other.numerator else other.denominator).toRat =
      (if 0 < e then other'.numerator else other'.denominator).toRat := by
    split
    · exact ho.numerator
    · exact ho.denominator
  have bottom : (if 0 < e then other.denominator else other.numerator).toRat =
      (if 0 < e then other'.denominator else other'.numerator).toRat := by
    split
    · exact ho.denominator
    · exact ho.numerator
  obtain ⟨numerator, habove, eqAbove⟩ := Decimal.exists_times? h.numerator top above
  obtain ⟨denominator, hbelow, eqBelow⟩ := Decimal.exists_times? h.denominator bottom below
  refine ⟨⟨numerator, denominator, next.roots⟩, absorb?_eq_some.mpr ⟨habove, hbelow, ?_⟩,
    ⟨eqAbove, eqBelow, rfl⟩⟩
  rw [roots, h.roots, ho.roots]

end Reduction

namespace MeasureUnit

/-- **Units built alike reduce alike.** -/
theorem reduce?_of_same {a b : MeasureUnit} {r : Reduction} (h : a.same b = true)
    (hr : a.reduce? = some r) : ∃ s, b.reduce? = some s ∧ r.Alike s := by
  have holds : HoldsAlike
      (fun a b => ∀ r, a.reduce? = some r → ∃ s, b.reduce? = some s ∧ r.Alike s)
      (fun us vs => ∀ start start' r, start.Alike start' → reduceTerms? us start = some r →
        ∃ s, reduceTerms? vs start' = some s ∧ r.Alike s) :=
    { primitive := fun _ _ _ r hr => ⟨r, hr, rfl, rfl, rfl⟩
      scaled := fun _ _ _ _ _ _ base value r hr => by
        obtain ⟨reduced, hreduced, numerator, hnumerator, rfl⟩ := reduce?_scaled.mp hr
        obtain ⟨other, hother, alike⟩ := base reduced hreduced
        obtain ⟨product, hproduct, eq⟩ := Decimal.exists_multiply? alike.numerator value hnumerator
        exact ⟨_, reduce?_scaled.mpr ⟨other, hother, product, hproduct, rfl⟩, eq,
          alike.denominator, alike.roots⟩
      derived := fun us vs _ _ _ terms r hr => by
        rw [reduce?] at hr ⊢
        exact terms .identity .identity r ⟨rfl, rfl, rfl⟩ hr
      nil := fun start start' r alike hr => by
        rw [reduceTerms?] at hr
        exact ⟨start', rfl, Option.some.inj hr ▸ alike⟩
      cons := fun u v e us vs unit rest start start' r alike hr => by
        obtain ⟨other, hother, next, hnext, hr⟩ := reduceTerms?_cons.mp hr
        obtain ⟨other', hother', otherAlike⟩ := unit other hother
        obtain ⟨next', hnext', nextAlike⟩ := alike.absorb? otherAlike hnext
        obtain ⟨s, hs, sAlike⟩ := rest next next' r nextAlike hr
        exact ⟨s, reduceTerms?_cons.mpr ⟨other', hother', next', hnext', hs⟩, sAlike⟩ }
  exact holds.of_same a b h r hr

/-! ## Roots -/

mutual

/-- **A reduction has the exponents of the unit.** -/
theorem exponentOf_roots (symbol : String) : (unit : MeasureUnit) → {r : Reduction} →
    unit.reduce? = some r → r.roots.exponentOf symbol = unit.degree symbol
  | primitive label name dimension, r, h => by
    rw [reduce?] at h
    rw [degree]
    split at h
    · next plain =>
        rw [if_pos plain, ← Option.some.inj h]
        rfl
    · next root =>
        rw [if_neg root, ← Option.some.inj h]
        simp
  | scaled _ _ base factor, r, h => by
    obtain ⟨reduced, hreduced, numerator, -, rfl⟩ := reduce?_scaled.mp h
    rw [degree, ← exponentOf_roots symbol base hreduced]
  | derived terms _ _ _, r, h => by
    rw [reduce?] at h
    rw [degree, exponentOf_rootsOfTerms symbol terms h]
    exact Int.zero_add _

theorem exponentOf_rootsOfTerms (symbol : String) : (terms : List (MeasureUnit × Int)) →
    {start r : Reduction} → reduceTerms? terms start = some r →
      r.roots.exponentOf symbol = start.roots.exponentOf symbol + degreeOfTerms terms symbol
  | [], start, r, h => by
    rw [reduceTerms?] at h
    rw [← Option.some.inj h, degreeOfTerms, Int.add_zero]
  | (unit, e) :: rest, start, r, h => by
    obtain ⟨other, hother, next, hnext, h⟩ := reduceTerms?_cons.mp h
    rw [exponentOf_rootsOfTerms symbol rest h, (Reduction.absorb?_eq_some.mp hnext).2.2,
      Powers.exponentOf_collect, Powers.exponentOf_append, Powers.exponentOf_scale,
      exponentOf_roots symbol unit hother, degreeOfTerms, Int.add_assoc]

end

/-- **Units that reduce** to given powers of root units. -/
def HasRoots (unit : MeasureUnit) (roots : Powers) : Prop :=
  ∃ r, unit.reduce? = some r ∧ r.roots = roots

namespace HasRoots

variable {unit source target : MeasureUnit} {roots : Powers} {conversion : Conversion}

/-- The exponents of the roots are those of the unit. -/
theorem degree (h : unit.HasRoots roots) (symbol : String) :
    unit.degree symbol = roots.exponentOf symbol := by
  obtain ⟨r, hr, rfl⟩ := h
  exact (exponentOf_roots symbol unit hr).symm

/-- **What converts has the same roots.** -/
theorem of_conversionTo (h : source.conversionTo target = .ok conversion)
    (ht : target.HasRoots roots) : source.HasRoots roots := by
  obtain ⟨t, ht, rfl⟩ := ht
  rcases conversionTo_eq_ok h with ⟨same, -⟩ | ⟨r, t', hr, ht', eq, -⟩
  · rw [same_comm] at same
    obtain ⟨r, hr, alike⟩ := reduce?_of_same same ht
    exact ⟨r, hr, alike.roots.symm⟩
  · obtain rfl := Option.some.inj (ht.symm.trans ht')
    exact ⟨r, hr, eq⟩

end HasRoots

end MeasureUnit

end Tariff
