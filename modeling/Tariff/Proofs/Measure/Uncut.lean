import Mathlib.Algebra.Ring.Subring.Basic
import Tariff.Proofs.Measure.NormalForm
import Tariff.Proofs.Measure.Ratio

/-!
# Conversions that no storing cuts

The fraction of a conversion is multiplied together factor by factor, and each product is
stored.  A product with too many digits is cut when it is stored, and nobody is told.  As
long as none is, the fraction of a conversion is the ratio of the two units.

## Main definitions

* `Decimal.IsKept` — numbers that storing leaves as they are
* `MeasureUnit.ratiosAbove`, `MeasureUnit.ratiosBelow` — the ratios that are multiplied on
  either side of the line
* `MeasureUnit.IsUncut` — pairs of units between which no product is cut

## Main statements

* `Decimal.toRat_times?` — a repeated product that is kept at each step
* `MeasureUnit.toRat_reduceTerms?` — the sides of a reduction are products of ratios
* `MeasureUnit.IsStandard.ratio_eq` — so is the ratio of a unit
* `MeasureUnit.conversionTo_ratio` — the fraction of a conversion is the ratio of the units
* `MeasureUnit.conversionTo_cut` — a conversion that is cut to the identity

## Design notes

What has to be kept is every product of the first few ratios, and so it matters in which
order the factors of a unit are named: a product may be cut on the way to a number that
would be kept.  All conditions are about exact numbers.  None of them asks what a reduction
has stored.
-/

namespace Tariff

/-! ## Numbers that are kept -/

namespace Decimal

variable {x : ℚ} {a b c start factor result : Decimal} {count : ℕ}

/-- **Numbers that are kept** when they are stored: whole numbers, and those that are denoted by a
decimal. -/
def IsKept (x : ℚ) : Prop :=
  (∃ n : ℤ, (n : ℚ) = x) ∨ ∃ d : Decimal, d.toRat = x

theorem isKept_toRat (d : Decimal) : IsKept d.toRat := .inr ⟨d, rfl⟩

/-- Storing leaves them as they are, in any mode. -/
theorem IsKept.stored_eq (kept : IsKept x) (mode : RoundingMode) : mode.stored x maxPlaces = x := by
  rcases kept with ⟨n, rfl⟩ | ⟨d, rfl⟩
  · exact mode.stored_intCast n _
  · exact d.stored_toRat mode

/-- A product that is kept is exact. -/
theorem IsKept.toRat_multiply? (kept : IsKept (a.toRat * b.toRat)) (h : a.multiply? b = some c) :
    c.toRat = a.toRat * b.toRat := by
  rw [Decimal.toRat_multiply? h, kept.stored_eq]

/-- **A repeated product** is exact if it is kept at each step. -/
theorem toRat_times? (kept : ∀ k ≤ count, IsKept (start.toRat * factor.toRat ^ k))
    (h : start.times? factor count = some result) :
    result.toRat = start.toRat * factor.toRat ^ count := by
  induction count generalizing start with
  | zero =>
      rw [times?] at h
      rw [pow_zero, mul_one, Option.some.inj h]
  | succ count ih =>
      rw [times?_succ] at h
      obtain ⟨next, hnext, h⟩ := Option.bind_eq_some_iff.mp h
      have value : next.toRat = start.toRat * factor.toRat := by
        have once := kept 1 (Nat.succ_le_succ (Nat.zero_le _))
        rw [pow_one] at once
        exact once.toRat_multiply? hnext
      rw [ih _ h, value, pow_succ', mul_assoc]
      intro k le
      rw [value, mul_assoc, ← pow_succ']
      exact kept (k + 1) (Nat.succ_le_succ le)

end Decimal

namespace MeasureUnit

open Decimal (IsKept)

variable {unit a b : MeasureUnit} {terms : List (MeasureUnit × ℤ)}

/-! ## The ratios that are multiplied -/

/-- The ratios of factors, each as often as its exponent counts. -/
def ratiosBy (count : ℤ → ℕ) (terms : List (MeasureUnit × ℤ)) : List ℚ :=
  terms.flatMap fun (unit, e) => List.replicate (count e) unit.ratio

/-- The ratios of the factors above the line. -/
def ratiosAbove (terms : List (MeasureUnit × ℤ)) : List ℚ :=
  ratiosBy Int.toNat terms

/-- The ratios of the factors below the line. -/
def ratiosBelow (terms : List (MeasureUnit × ℤ)) : List ℚ :=
  ratiosBy (fun e => (-e).toNat) terms

theorem ratiosAbove_cons (unit : MeasureUnit) (e : ℤ) (terms : List (MeasureUnit × ℤ)) :
    ratiosAbove ((unit, e) :: terms) = List.replicate e.toNat unit.ratio ++ ratiosAbove terms := by
  rw [ratiosAbove, ratiosBy, List.flatMap_cons]
  rfl

theorem ratiosBelow_cons (unit : MeasureUnit) (e : ℤ) (terms : List (MeasureUnit × ℤ)) :
    ratiosBelow ((unit, e) :: terms) =
      List.replicate (-e).toNat unit.ratio ++ ratiosBelow terms := by
  rw [ratiosBelow, ratiosBy, List.flatMap_cons]
  rfl

/-- What is multiplied are ratios of factors. -/
theorem exists_of_mem_ratiosBy {count : ℤ → ℕ} {ratio : ℚ} (h : ratio ∈ ratiosBy count terms) :
    ∃ factor e, (factor, e) ∈ terms ∧ ratio = factor.ratio := by
  obtain ⟨⟨factor, e⟩, term, mem⟩ := List.mem_flatMap.mp h
  exact ⟨factor, e, term, List.eq_of_mem_replicate mem⟩

/-- Whether a number is kept when ratios are multiplied to it one after the other. -/
def KeptThrough (x : ℚ) (ratios : List ℚ) : Prop :=
  ∀ front, front <+: ratios → IsKept (x * front.prod)

/-- **Pairs of units between which nothing is cut.** -/
structure IsUncut (source target : MeasureUnit) : Prop where
  /-- The numerator of the source is kept. -/
  sourceAbove : KeptThrough 1 (ratiosAbove source.factors)
  /-- The denominator of the source is kept. -/
  sourceBelow : KeptThrough 1 (ratiosBelow source.factors)
  /-- The numerator of the target is kept. -/
  targetAbove : KeptThrough 1 (ratiosAbove target.factors)
  /-- The denominator of the target is kept. -/
  targetBelow : KeptThrough 1 (ratiosBelow target.factors)
  /-- The numerator of the conversion is kept. -/
  numerator : IsKept ((ratiosAbove source.factors).prod * (ratiosBelow target.factors).prod)
  /-- The denominator of the conversion is kept. -/
  denominator : IsKept ((ratiosBelow source.factors).prod * (ratiosAbove target.factors).prod)

/-- Where a number is kept through a run of equal ratios, it is so at each step of the run and
from there on. -/
theorem KeptThrough.replicate {x ratio : ℚ} {count : ℕ} {rest : List ℚ}
    (kept : KeptThrough x (List.replicate count ratio ++ rest)) :
    (∀ k ≤ count, IsKept (x * ratio ^ k)) ∧ KeptThrough (x * ratio ^ count) rest := by
  constructor
  · intro k le
    rw [← List.prod_replicate]
    refine kept _ ?_
    rw [← Nat.add_sub_cancel' le, List.replicate_add, List.append_assoc]
    exact List.prefix_append _ _
  · intro front before
    have whole := kept (List.replicate count ratio ++ front)
      ((List.prefix_append_right_inj _).mpr before)
    rwa [List.prod_append, List.prod_replicate, ← mul_assoc] at whole

/-- **Where all ratios are whole**, nothing is cut. -/
theorem IsUncut.of_whole
    (ha : ∀ factor e, (factor, e) ∈ a.factors → factor.ratio ∈ (Int.castRingHom ℚ).range)
    (hb : ∀ factor e, (factor, e) ∈ b.factors → factor.ratio ∈ (Int.castRingHom ℚ).range) :
    IsUncut a b := by
  have whole : ∀ (count : ℤ → ℕ) (terms : List (MeasureUnit × ℤ)),
      (∀ factor e, (factor, e) ∈ terms → factor.ratio ∈ (Int.castRingHom ℚ).range) →
        ∀ front, front <+: ratiosBy count terms → front.prod ∈ (Int.castRingHom ℚ).range := by
    intro count terms factors front before
    refine list_prod_mem fun ratio mem => ?_
    obtain ⟨factor, e, term, rfl⟩ := exists_of_mem_ratiosBy (before.subset mem)
    exact factors factor e term
  have kept : ∀ (count : ℤ → ℕ) (terms : List (MeasureUnit × ℤ)),
      (∀ factor e, (factor, e) ∈ terms → factor.ratio ∈ (Int.castRingHom ℚ).range) →
        KeptThrough 1 (ratiosBy count terms) := by
    intro count terms factors front before
    rw [one_mul]
    exact .inl (whole count terms factors front before)
  have product (count : ℤ → ℕ) := whole count _ ha _ List.prefix_rfl
  have product' (count : ℤ → ℕ) := whole count _ hb _ List.prefix_rfl
  exact
    { sourceAbove := kept _ _ ha
      sourceBelow := kept _ _ ha
      targetAbove := kept _ _ hb
      targetBelow := kept _ _ hb
      numerator := .inl (mul_mem (product _) (product' _))
      denominator := .inl (mul_mem (product _) (product' _)) }

/-! ## Reductions -/

/-- What a unit reduces to if nothing is cut: its ratio over one. -/
def ReducesToRatio (unit : MeasureUnit) : Prop :=
  ∀ r, unit.reduce? = some r → r.numerator.toRat = unit.ratio ∧ r.denominator.toRat = 1

/-- **A factor that is absorbed** multiplies one side of the fraction by its ratio, as often as its
exponent says. -/
theorem toRat_absorb? {start other next : Reduction} {e : ℤ}
    (hu : other.numerator.toRat = unit.ratio ∧ other.denominator.toRat = 1)
    (above : ∀ k ≤ e.toNat, IsKept (start.numerator.toRat * unit.ratio ^ k))
    (below : ∀ k ≤ (-e).toNat, IsKept (start.denominator.toRat * unit.ratio ^ k))
    (h : start.absorb? other e = some next) :
    next.numerator.toRat = start.numerator.toRat * unit.ratio ^ e.toNat ∧
      next.denominator.toRat = start.denominator.toRat * unit.ratio ^ (-e).toNat := by
  obtain ⟨numerator, denominator, -⟩ := Reduction.absorb?_eq_some.mp h
  obtain ⟨ratio, one⟩ := hu
  have unchanged : ∀ d : Decimal, ∀ k ≤ e.natAbs,
      IsKept (d.toRat * other.denominator.toRat ^ k) := by
    intro d k _
    rw [one, one_pow, mul_one]
    exact Decimal.isKept_toRat d
  rcases lt_or_ge 0 e with positive | negative
  · have count : e.toNat = e.natAbs := by omega
    have none : (-e).toNat = 0 := by omega
    rw [if_pos positive] at numerator denominator
    rw [count, ← ratio] at above
    rw [Decimal.toRat_times? above numerator, Decimal.toRat_times? (unchanged _) denominator, ratio,
      one, count, none]
    simp
  · have count : (-e).toNat = e.natAbs := by omega
    have none : e.toNat = 0 := by omega
    rw [if_neg (not_lt.mpr negative)] at numerator denominator
    rw [count, ← ratio] at below
    rw [Decimal.toRat_times? below denominator, Decimal.toRat_times? (unchanged _) numerator, ratio,
      one, count, none]
    simp

/-- **The sides of a reduction** are the products of the ratios that were multiplied. -/
theorem toRat_reduceTerms? {start r : Reduction}
    (units : ∀ unit e, (unit, e) ∈ terms → unit.ReducesToRatio)
    (above : KeptThrough start.numerator.toRat (ratiosAbove terms))
    (below : KeptThrough start.denominator.toRat (ratiosBelow terms))
    (h : reduceTerms? terms start = some r) :
    r.numerator.toRat = start.numerator.toRat * (ratiosAbove terms).prod ∧
      r.denominator.toRat = start.denominator.toRat * (ratiosBelow terms).prod := by
  induction terms generalizing start with
  | nil =>
      rw [reduceTerms?] at h
      obtain rfl := Option.some.inj h
      simp [ratiosAbove, ratiosBelow, ratiosBy]
  | cons head rest ih =>
      obtain ⟨unit, e⟩ := head
      obtain ⟨other, hother, next, hnext, h⟩ := reduceTerms?_cons.mp h
      rw [ratiosAbove_cons] at above ⊢
      rw [ratiosBelow_cons] at below ⊢
      obtain ⟨stepsAbove, restAbove⟩ := above.replicate
      obtain ⟨stepsBelow, restBelow⟩ := below.replicate
      obtain ⟨numerator, denominator⟩ :=
        toRat_absorb? (units unit e List.mem_cons_self other hother) stepsAbove stepsBelow hnext
      rw [← numerator] at restAbove
      rw [← denominator] at restBelow
      obtain ⟨top, bottom⟩ :=
        ih (fun unit e mem => units unit e (List.mem_cons_of_mem _ mem)) restAbove restBelow h
      rw [top, bottom, numerator, denominator, List.prod_append, List.prod_append,
        List.prod_replicate, List.prod_replicate, mul_assoc, mul_assoc]
      exact ⟨rfl, rfl⟩

/-! ## Standard units -/

/-- The ratio of a unit is that of its factors. -/
theorem ratioOfTerms_factors (unit : MeasureUnit) : ratioOfTerms unit.factors = unit.ratio := by
  have single : ∀ unit : MeasureUnit, ratioOfTerms [(unit, 1)] = unit.ratio := by
    intro unit
    rw [ratioOfTerms, ratioOfTerms, zpow_one, mul_one]
  cases unit with
  | primitive symbol name dimension =>
      rw [factors_of_not_isProduct rfl]
      split
      · rw [ratioOfTerms, ratio]
      · exact single _
  | scaled symbol name base factor => exact single _
  | derived terms symbol name dimension => rw [factors_derived, ratio]

/-- The powers of ratios are parted by their signs. -/
theorem ratioOfTerms_eq (positive : ∀ unit e, (unit, e) ∈ terms → 0 < unit.ratio) :
    ratioOfTerms terms = (ratiosAbove terms).prod / (ratiosBelow terms).prod ∧
      0 < (ratiosAbove terms).prod ∧ 0 < (ratiosBelow terms).prod := by
  induction terms with
  | nil => simp [ratioOfTerms, ratiosAbove, ratiosBelow, ratiosBy]
  | cons head rest ih =>
      obtain ⟨unit, e⟩ := head
      obtain ⟨value, above, below⟩ :=
        ih fun unit e mem => positive unit e (List.mem_cons_of_mem _ mem)
      have pos : 0 < unit.ratio := positive unit e List.mem_cons_self
      have sign : unit.ratio ^ e = unit.ratio ^ e.toNat / unit.ratio ^ (-e).toNat := by
        rw [← zpow_natCast, ← zpow_natCast, ← zpow_sub₀ pos.ne']
        congr 1
        omega
      rw [ratioOfTerms, value, sign, ratiosAbove_cons, ratiosBelow_cons, List.prod_append,
        List.prod_append, List.prod_replicate, List.prod_replicate]
      refine ⟨div_mul_div_comm _ _ _ _, ?_, ?_⟩
      · exact mul_pos (pow_pos pos _) above
      · exact mul_pos (pow_pos pos _) below

/-- The units of the standard catalogue are positive, and their reductions are exact. -/
theorem reducesToRatio_of_find? (h : ∃ symbol, Catalogue.standard.find? symbol = some unit) :
    0 < unit.ratio ∧ unit.ReducesToRatio := by
  have entries : ∀ entry ∈ Catalogue.standard.entries, 0 < entry.2.ratio ∧
      ∀ r ∈ entry.2.reduce?, r.numerator.toRat = entry.2.ratio ∧ r.denominator.toRat = 1 := by
    decide +kernel
  obtain ⟨symbol, found⟩ := h
  exact entries (symbol, unit) (Catalogue.mem_entries_of_find? found)

namespace IsStandard

/-- **The ratio of a standard unit** is a fraction of products of ratios. -/
theorem ratio_eq (standard : unit.IsStandard) :
    unit.ratio = (ratiosAbove unit.factors).prod / (ratiosBelow unit.factors).prod ∧
      0 < (ratiosAbove unit.factors).prod ∧ 0 < (ratiosBelow unit.factors).prod := by
  rw [← ratioOfTerms_factors]
  refine ratioOfTerms_eq fun factor e mem => ?_
  have entered := (standard.hasForm.factor_facts (fun _ => isProduct_of_find?) mem).1
  exact (reducesToRatio_of_find? entered).1

/-- **Its reduction** is that fraction, if nothing is cut. -/
theorem toRat_reduce? (standard : unit.IsStandard) {r : Reduction}
    (above : KeptThrough 1 (ratiosAbove unit.factors))
    (below : KeptThrough 1 (ratiosBelow unit.factors)) (h : unit.reduce? = some r) :
    r.numerator.toRat = (ratiosAbove unit.factors).prod ∧
      r.denominator.toRat = (ratiosBelow unit.factors).prod := by
  have single : ∀ unit : MeasureUnit, (∃ symbol, Catalogue.standard.find? symbol = some unit) →
      unit.reduce? = some r → r.numerator.toRat = (ratiosAbove unit.factors).prod ∧
        r.denominator.toRat = (ratiosBelow unit.factors).prod := by
    intro unit entered h
    obtain ⟨numerator, denominator⟩ := (reducesToRatio_of_find? entered).2 r h
    have none : (ratiosBelow unit.factors).prod = 1 := by
      rw [factors_of_not_isProduct (isProduct_of_find? entered)]
      split <;> simp [ratiosBelow, ratiosBy]
    obtain ⟨ratio, -, -⟩ := ratio_eq (.given entered)
    rw [none, div_one] at ratio
    rw [numerator, denominator, none, ratio]
    exact ⟨rfl, rfl⟩
  cases standard.hasForm with
  | given entered => exact single _ entered h
  | one => exact single _ ⟨"one", rfl⟩ h
  | product made _ parts =>
      rw [made, factors_derived] at above below ⊢
      rw [made, reduce?] at h
      have start : Reduction.identity.numerator.toRat = 1 ∧
          Reduction.identity.denominator.toRat = 1 :=
        ⟨Decimal.toRat_one, Decimal.toRat_one⟩
      rw [← start.1] at above
      rw [← start.2] at below
      have sides := toRat_reduceTerms?
        (fun unit e mem => (reducesToRatio_of_find? (parts unit e mem).1).2) above below h
      rwa [start.1, start.2, one_mul, one_mul] at sides

end IsStandard

/-! ## Conversions -/

variable {c : Conversion}

/-- **The fraction of a conversion is the ratio of the units** if nothing is cut on the way.  Only
units of one ratio are then converted by the identity. -/
theorem conversionTo_ratio (ha : a.IsStandard) (hb : b.IsStandard) (uncut : IsUncut a b)
    (h : a.conversionTo b = .ok c) :
    c.denominator.toRat ≠ 0 ∧ c.numerator.toRat * b.ratio = c.denominator.toRat * a.ratio ∧
      (c.isIdentity = true → a.ratio = b.ratio) := by
  have fraction : c.denominator.toRat ≠ 0 ∧
      c.numerator.toRat * b.ratio = c.denominator.toRat * a.ratio := by
    have one : Decimal.one.toRat = 1 := Decimal.toRat_one
    rcases conversionTo_eq_ok h with
      ⟨same, rfl⟩ | ⟨r, t, hr, ht, -, numerator, denominator, hn, hd, rfl⟩
    · rw [Conversion.identity, one, ratio_eq_of_same a b same]
      exact ⟨one_ne_zero, rfl⟩
    · obtain ⟨above, below⟩ := ha.toRat_reduce? uncut.sourceAbove uncut.sourceBelow hr
      obtain ⟨above', below'⟩ := hb.toRat_reduce? uncut.targetAbove uncut.targetBelow ht
      obtain ⟨ratio, posAbove, posBelow⟩ := ha.ratio_eq
      obtain ⟨ratio', posAbove', posBelow'⟩ := hb.ratio_eq
      have top : numerator.toRat = _ := Decimal.IsKept.toRat_multiply? (by
        rw [above, below']
        exact uncut.numerator) hn
      have bottom : denominator.toRat = _ := Decimal.IsKept.toRat_multiply? (by
        rw [below, above']
        exact uncut.denominator) hd
      rw [above, below'] at top
      rw [below, above'] at bottom
      have nonzero : denominator.toRat ≠ 0 := by
        rw [bottom]
        exact (mul_pos posBelow posAbove').ne'
      have cross : numerator.toRat * b.ratio = denominator.toRat * a.ratio := by
        rw [top, bottom, ratio, ratio']
        field_simp
      rw [Conversion.ofFraction]
      split
      · next equal =>
          rw [(Decimal.sameValue_iff _ _).mp equal] at cross
          rw [Conversion.identity, one, mul_left_cancel₀ nonzero cross]
          exact ⟨one_ne_zero, rfl⟩
      · exact ⟨nonzero, cross⟩
  obtain ⟨nonzero, cross⟩ := fraction
  refine ⟨nonzero, cross, fun identity => ?_⟩
  rw [Conversion.isIdentity, Decimal.sameValue_iff] at identity
  rw [identity] at cross
  exact (mul_left_cancel₀ nonzero cross).symm

/-- Megawatt hours a day in kilowatt hours an hour. -/
theorem conversionTo_ratio_perDay : ∃ c,
    (megawattHour.divide day).conversionTo (kilowattHour.divide hour) = .ok c ∧
      c.denominator.toRat ≠ 0 ∧
        c.numerator.toRat * (kilowattHour.divide hour).ratio =
          c.denominator.toRat * (megawattHour.divide day).ratio := by
  have entered : megawattHour.IsStandard ∧ day.IsStandard ∧ kilowattHour.IsStandard ∧
      hour.IsStandard :=
    ⟨.given ⟨"MWh", rfl⟩, .given ⟨"d", rfl⟩, .given ⟨"kWh", rfl⟩, .given ⟨"h", rfl⟩⟩
  obtain ⟨energy, time, energy', time'⟩ := entered
  have whole : ∀ unit ∈ [megawattHour.divide day, kilowattHour.divide hour],
      ∀ factor e, (factor, e) ∈ unit.factors → factor.ratio ∈ (Int.castRingHom ℚ).range := by
    have den : ∀ unit ∈ [megawattHour.divide day, kilowattHour.divide hour],
        ∀ term ∈ unit.factors, (term.1.ratio.num : ℚ) = term.1.ratio := by
      decide +kernel
    exact fun unit mem factor e term => ⟨factor.ratio.num, den unit mem (factor, e) term⟩
  have uncut : IsUncut (megawattHour.divide day) (kilowattHour.divide hour) :=
    .of_whole (whole _ List.mem_cons_self) (whole _ (List.mem_cons_of_mem _ List.mem_cons_self))
  obtain ⟨c, h⟩ : ∃ c, (megawattHour.divide day).conversionTo (kilowattHour.divide hour) = .ok c :=
    ⟨⟨.ofDigits 12960000000000 0, .ofDigits 311040000000 0⟩, by decide +kernel⟩
  obtain ⟨nonzero, cross, -⟩ :=
    conversionTo_ratio (.divide energy time) (.divide energy' time') uncut h
  exact ⟨c, h, nonzero, cross⟩

/-- **Conversions that are cut.**  A hundredth to the fifteenth power has no place left, and neither
has the sixteenth, so that one is taken for the other. -/
theorem conversionTo_cut : (percent.pow 15).IsStandard ∧ (percent.pow 16).IsStandard ∧
    ∃ c, (percent.pow 15).conversionTo (percent.pow 16) = .ok c ∧ c.isIdentity = true ∧
      c.numerator.toRat * (percent.pow 16).ratio ≠ c.denominator.toRat * (percent.pow 15).ratio ∧
        (percent.pow 15).ratio ≠ (percent.pow 16).ratio := by
  have power : ∀ n, (percent.pow n).IsStandard := by
    intro n
    refine .product fun unit e mem => ?_
    obtain ⟨rfl, -⟩ := Prod.mk.inj (List.mem_singleton.mp mem)
    exact .given ⟨"%", rfl⟩
  have ratios : (percent.pow 15).ratio = 10 ^ (-30 : ℤ) ∧
      (percent.pow 16).ratio = 10 ^ (-32 : ℤ) := by
    decide +kernel
  have identity : (percent.pow 15).conversionTo (percent.pow 16) = .ok .identity := by
    decide +kernel
  refine ⟨power 15, power 16, .identity, identity, by decide, ?_, ?_⟩
  · rw [Conversion.identity, Decimal.toRat_one, ratios.1, ratios.2]
    norm_num
  · rw [ratios.1, ratios.2]
    norm_num

end MeasureUnit

end Tariff
