import Tariff.Proofs.Decimal.Writing
import Tariff.Proofs.Measure.Quantity

/-!
# Quantities written in different ways

Calculations under a precision and with quantities are followed on two writings of
their operands.

## Main definitions

* `Quantity.Alike` — quantities in one unit whose values denote one number

## Main statements

* `Precision.round_alike`, `add_alike`, `subtract_alike`, `multiply_alike`,
  `divide_alike`, `divide_alike_by` — operations on decimals
* `Conversion.apply_alike` — conversion
* `Quantity.convert_alike`, `add_alike`, `multiply_alike` — operations on quantities

## Design notes

Whether there is a quotient does not depend on how it is rounded, and so not on the
writing.  Its number may, where all digits of a quotient by a divisor of more than 64
bits are kept and it lies in the middle; half-even division leaves this out.
-/

namespace Tariff

open Outcome

variable {p : Precision}

/-! ## Decimals under a precision -/

namespace Precision

variable {a b x y : Decimal}

/-- Numbers with the same digits are rounded to one number. -/
theorem round_alike_of_digits
    (h : p.mode.toDigits p.digits a.toRat = p.mode.toDigits p.digits x.toRat) :
    Agree Decimal.Alike (p.round a) (p.round x) :=
  .orOverflow (Decimal.roundSignificant?_alike p.digits_le h)

theorem round_alike (h : a.Alike x) : Agree Decimal.Alike (p.round a) (p.round x) :=
  round_alike_of_digits (congrArg (p.mode.toDigits p.digits) h)

theorem add_alike (ha : a.Alike x) (hb : b.Alike y) :
    Agree Decimal.Alike (p.add a b) (p.add x y) :=
  (Agree.orOverflow (Decimal.add?_alike ha hb)).bind fun _ _ _ _ sum => round_alike sum

theorem subtract_alike (ha : a.Alike x) (hb : b.Alike y) :
    Agree Decimal.Alike (p.subtract a b) (p.subtract x y) :=
  (Agree.orOverflow (Decimal.subtract?_alike ha hb)).bind fun _ _ _ _ rest => round_alike rest

theorem multiply_alike (ha : a.Alike x) (hb : b.Alike y) :
    Agree Decimal.Alike (p.multiply a b) (p.multiply x y) :=
  (Agree.orOverflow (Decimal.multiply?_alike ha hb)).bind fun _ _ _ _ product =>
    round_alike product

/-- Quotients of numbers written in two ways exist both or neither; they denote one number if they
have the same digits. -/
theorem divide_alike_of_digits (ha : a.Alike x) (hb : b.Alike y)
    (digits : ¬ b.isZero = true →
      p.mode.toDigits p.digits ((Decimal.quotientMode a b).stored (a.toRat / b.toRat) maxPlaces) =
        p.mode.toDigits p.digits
          ((Decimal.quotientMode x y).stored (x.toRat / y.toRat) maxPlaces)) :
    Agree Decimal.Alike (p.divide a b) (p.divide x y) := by
  rw [divide, divide, Decimal.isZero_congr hb]
  split
  · exact .error _ _
  · next nonzero' =>
      have nonzero : ¬ b.isZero = true := by rwa [Decimal.isZero_congr hb]
      have room : (a.divide? b).isSome = true ↔ (x.divide? y).isSome = true := by
        rw [Decimal.divide?_isSome_iff nonzero, Decimal.divide?_isSome_iff nonzero', ha, hb]
      have quotients := rel_of_isSome (r := fun _ _ => True) room fun _ _ _ _ => trivial
      refine (Agree.orOverflow quotients).bind ?_
      intro quotient other hquotient hother _
      rw [orOverflow_eq_ok] at hquotient hother
      refine round_alike_of_digits ?_
      rw [Decimal.toRat_divide? nonzero hquotient, Decimal.toRat_divide? nonzero' hother]
      exact digits nonzero

/-- **Quotients that are stored half-even** denote one number. -/
theorem divide_alike (ha : a.Alike x) (hb : b.Alike y) (even : Decimal.QuotientHalfEven a b)
    (even' : Decimal.QuotientHalfEven x y) :
    Agree Decimal.Alike (p.divide a b) (p.divide x y) :=
  divide_alike_of_digits ha hb fun _ => by rw [even, even', ha, hb]

/-- **Quotients by one divisor** under half-even division denote one number. -/
theorem divide_alike_by (ha : a.Alike x) (even : p.DividesHalfEven {(a, b), (x, b)}) :
    Agree Decimal.Alike (p.divide a b) (p.divide x b) :=
  divide_alike_of_digits ha (.refl b) fun nonzero => toDigits_quotient_eq nonzero ha even

theorem roundPlaces_alike {places : ℕ} (within : places ≤ maxPlaces) (h : a.Alike x) :
    (p.roundPlaces places a).Alike (p.roundPlaces places x) := by
  rw [Decimal.Alike, roundPlaces, roundPlaces, Decimal.toRat_roundPlaces _ within,
    Decimal.toRat_roundPlaces _ within, h]

end Precision

/-! ## Conversion -/

/-- **A converted value** does not depend on the writing. -/
theorem Conversion.apply_alike {c : Conversion} {value other : Decimal} (h : value.Alike other)
    (even : p.DividesHalfEven (c.quotients value)) (even' : p.DividesHalfEven (c.quotients other)) :
    Agree Decimal.Alike (c.apply p value) (c.apply p other) := by
  rw [apply, apply]
  split
  · exact .ok h
  · split
    · exact .error _ _
    · refine (Agree.orOverflow (Decimal.multiply?_alike h (.refl _))).bind ?_
      intro scaled scaled' hscaled hscaled' alike
      rw [orOverflow_eq_ok] at hscaled hscaled'
      exact Precision.divide_alike_by alike (dividesHalfEven_pair even even' hscaled hscaled')

/-! ## Quantities -/

namespace Quantity

/-- **Quantities in one unit** whose values denote one number. -/
structure Alike (a b : Quantity) : Prop where
  /-- The values denote one number. -/
  value : a.value.Alike b.value
  /-- The unit is the same. -/
  unit : a.unit = b.unit

variable {a b x y : Quantity}

theorem Alike.refl (a : Quantity) : a.Alike a := ⟨rfl, rfl⟩

theorem Alike.isDimensionless (h : a.Alike x) : a.isDimensionless = x.isDimensionless := by
  simp only [Quantity.isDimensionless, dimension, h.unit]

theorem Alike.isNegative (h : a.Alike x) : a.isNegative = x.isNegative :=
  Decimal.isNegative_congr h.value

theorem Alike.strip (h : a.Alike x) : a.strip.Alike x.strip :=
  ⟨Decimal.normalize_alike h.value, h.unit⟩

/-- **The same quantity in another unit** does not depend on the writing. -/
theorem convert_alike {unit : MeasureUnit} (h : a.Alike x)
    (even : p.DividesHalfEven (a.quotients unit)) (even' : p.DividesHalfEven (x.quotients unit)) :
    Agree Alike (a.convert unit p) (x.convert unit p) := by
  rw [convert, convert, ← h.unit]
  refine (Agree.refl _).bind ?_
  rintro c _ hc - rfl
  have half := dividesHalfEven_conversion even hc
  have half' := dividesHalfEven_conversion even' (h.unit ▸ hc)
  refine (Conversion.apply_alike h.value half half').bind ?_
  exact fun _ _ _ _ value => .ok ⟨value, rfl⟩

/-- In its own unit a quantity stays as it is written. -/
theorem valueIn_self (same : b.unit = a.unit) : b.valueIn a p = .ok b.value := by
  rw [valueIn_eq_ok, ← same]
  exact b.convert_self p

/-- **Sums in one unit.** -/
theorem add_alike (ha : a.Alike x) (hb : b.Alike y) (same : b.unit = a.unit) :
    Agree Alike (a.add b p) (x.add y p) := by
  have same' : y.unit = x.unit := by rw [← ha.unit, ← hb.unit, same]
  have measures : checkDimension a b = .ok ⟨⟩ :=
    checkDimension_eq_ok.mpr (by rw [dimension, dimension, same])
  have measures' : checkDimension x y = .ok ⟨⟩ :=
    checkDimension_eq_ok.mpr (by rw [dimension, dimension, same'])
  rw [add, add, measures, measures', valueIn_self same, valueIn_self same']
  exact (Precision.add_alike ha.value hb.value).bind fun _ _ _ _ sum => .ok ⟨sum, ha.unit⟩

/-- **Products.** -/
theorem multiply_alike (ha : a.Alike x) (hb : b.Alike y) :
    Agree Alike (a.multiply b p) (x.multiply y p) := by
  refine (Precision.multiply_alike ha.value hb.value).bind fun _ _ _ _ product => .ok ⟨product, ?_⟩
  rw [ha.unit, hb.unit]

end Quantity

end Tariff
