import Tariff.Measure.Quantity
import Tariff.Proofs.Measure.Precision

/-!
# Calculation with quantities on numbers

## Main definitions

* `Conversion.quotients`, `Quantity.quotients` — the quotient that a conversion takes

## Main statements

* `Conversion.apply_mono` — conversion by a positive factor keeps the order
* `Conversion.apply_nonneg` — and keeps the sign
* `Quantity.convert_eq_ok`, `add_eq_ok`, `subtract_eq_ok`, `multiply_eq_ok`,
  `divide_eq_ok` — the steps of calculations with quantities
* `Quantity.toRat_add`, `toRat_subtract` — sums and differences in one unit

## Design notes

A sum converts its right operand into the unit of the left one, also when the
units are the same; that conversion is the identity and leaves the value as it
is written.
-/

namespace Tariff

/-! ## Conversions -/

namespace Conversion

/-- The quotient by which a value is converted, as a dividend and its divisor. -/
def quotients (c : Conversion) (value : Decimal) : Set (Decimal × Decimal) :=
  {q | ∃ scaled, value.multiply? c.numerator = some scaled ∧ q = (scaled, c.denominator)}

/-- A denominator of at most 64 bits leaves no choice. -/
theorem dividesHalfEven_of_lt {c : Conversion} (narrow : c.denominator.mantissa < Decimal.wideFrom)
    (value : Decimal) (p : Precision) : p.DividesHalfEven (c.quotients value) := by
  refine Precision.dividesHalfEven_of_lt ?_
  rintro _ _ ⟨scaled, -, rfl, rfl⟩
  exact narrow

/-- **What a conversion calculates**: nothing, or a product and its quotient. -/
theorem apply_eq_ok {c : Conversion} {p : Precision} {value result : Decimal}
    (h : c.apply p value = .ok result) : c.isIdentity = true ∧ result = value ∨
      ¬ c.isIdentity = true ∧ ∃ scaled, value.multiply? c.numerator = some scaled ∧
        p.divide scaled c.denominator = .ok result := by
  rw [apply] at h
  split at h
  · next identity => exact .inl ⟨identity, (Except.ok.inj h).symm⟩
  · next different =>
      split at h
      · cases h
      · obtain ⟨scaled, hscaled, h⟩ := Outcome.bind_eq_ok.mp h
        exact .inr ⟨different, scaled, Outcome.orOverflow_eq_ok.mp hscaled, h⟩

/-- The quotients of two values that are converted alike. -/
theorem dividesHalfEven_pair {c : Conversion} {p : Precision} {value other scaled scaled' : Decimal}
    (even : p.DividesHalfEven (c.quotients value)) (even' : p.DividesHalfEven (c.quotients other))
    (h : value.multiply? c.numerator = some scaled)
    (h' : other.multiply? c.numerator = some scaled') :
    p.DividesHalfEven {(scaled, c.denominator), (scaled', c.denominator)} := by
  rintro all _ _ (⟨rfl, rfl⟩ | ⟨rfl, rfl⟩)
  · exact even all _ _ ⟨scaled, h, rfl⟩
  · exact even' all _ _ ⟨scaled', h', rfl⟩

/-- **Conversion by a positive factor keeps the order.** -/
theorem apply_mono {c : Conversion} {p : Precision} {value other result result' : Decimal}
    (numerator : 0 ≤ c.numerator.toRat) (denominator : 0 ≤ c.denominator.toRat)
    (even : p.DividesHalfEven (c.quotients value)) (even' : p.DividesHalfEven (c.quotients other))
    (le : value.toRat ≤ other.toRat) (h : c.apply p value = .ok result)
    (h' : c.apply p other = .ok result') : result.toRat ≤ result'.toRat := by
  rcases apply_eq_ok h with ⟨identity, rfl⟩ | ⟨different, scaled, hscaled, divided⟩ <;>
    rcases apply_eq_ok h' with ⟨identity', rfl⟩ | ⟨different', scaled', hscaled', divided'⟩
  · exact le
  · exact absurd identity different'
  · exact absurd identity' different
  · have products : scaled.toRat ≤ scaled'.toRat := by
      rw [Decimal.toRat_multiply? hscaled, Decimal.toRat_multiply? hscaled']
      exact RoundingMode.stored_mono rfl maxPlaces (mul_le_mul_of_nonneg_right le numerator)
    have positive : 0 < c.denominator.toRat :=
      denominator.lt_of_ne' (Decimal.toRat_ne_zero (Precision.isZero_of_divide divided))
    exact Precision.divide_mono positive products
      (fun _ => dividesHalfEven_pair even even' hscaled hscaled') divided divided'

/-- **Conversion by a positive factor keeps the sign**, however its quotient is
stored. -/
theorem apply_nonneg {c : Conversion} {p : Precision} {value result : Decimal}
    (numerator : 0 ≤ c.numerator.toRat) (denominator : 0 ≤ c.denominator.toRat)
    (nonneg : 0 ≤ value.toRat) (h : c.apply p value = .ok result) : 0 ≤ result.toRat := by
  rcases apply_eq_ok h with ⟨-, rfl⟩ | ⟨-, scaled, hscaled, divided⟩
  · exact nonneg
  · have product := Decimal.multiply?_nonneg nonneg numerator hscaled
    rw [Precision.toRat_divide_by divided]
    exact p.mode.toDigits_nonneg p.digits (RoundingMode.stored_nonneg
      (Decimal.isNearest_quotientMode _ _) maxPlaces (div_nonneg product denominator))

/-- Between units built alike values stay as they are. -/
theorem of_same {source target : MeasureUnit} (same : source.same target = true) :
    source.conversionTo target = .ok identity := by
  rw [MeasureUnit.conversionTo, if_pos same]

theorem identity_apply (p : Precision) (value : Decimal) : identity.apply p value = .ok value := by
  have identity : identity.isIdentity = true := by decide
  rw [apply, if_pos identity]

end Conversion

/-! ## Quantities -/

namespace Quantity

variable {a b q result : Quantity} {unit : MeasureUnit} {p : Precision}

theorem convert_eq_ok : q.convert unit p = .ok result ↔
    ∃ conversion, q.unit.conversionTo unit = .ok conversion ∧
      ∃ value, conversion.apply p q.value = .ok value ∧ result = ⟨value, unit⟩ := by
  simp only [convert, Outcome.bind_eq_ok, Outcome.pure_eq_ok, eq_comm (b := result)]

/-- The quotient that is taken to tell a quantity in a unit. -/
def quotients (q : Quantity) (unit : MeasureUnit) : Set (Decimal × Decimal) :=
  {x | ∃ conversion, q.unit.conversionTo unit = .ok conversion ∧ x ∈ conversion.quotients q.value}

/-- Denominators of at most 64 bits leave no choice. -/
theorem dividesHalfEven_of_lt (narrow : ∀ conversion, q.unit.conversionTo unit = .ok conversion →
    conversion.denominator.mantissa < Decimal.wideFrom) : p.DividesHalfEven (q.quotients unit) := by
  rintro all x y ⟨conversion, hconversion, mem⟩
  exact Conversion.dividesHalfEven_of_lt (narrow conversion hconversion) _ p all x y mem

/-- The quotient of a conversion that is found. -/
theorem dividesHalfEven_conversion {conversion : Conversion}
    (even : p.DividesHalfEven (q.quotients unit))
    (h : q.unit.conversionTo unit = .ok conversion) :
    p.DividesHalfEven (conversion.quotients q.value) :=
  even.mono fun _ mem => ⟨conversion, h, mem⟩

/-- In its own unit a quantity stays as it is. -/
theorem convert_self (q : Quantity) (p : Precision) : q.convert q.unit p = .ok q :=
  convert_eq_ok.mpr ⟨.identity, Conversion.of_same q.unit.same_self, q.value,
    Conversion.identity_apply p q.value, rfl⟩

theorem checkDimension_eq_ok : checkDimension a b = .ok ⟨⟩ ↔ a.dimension = b.dimension := by
  rw [checkDimension]
  split <;> simp_all

theorem valueIn_eq_ok {value : Decimal} :
    b.valueIn a p = .ok value ↔ b.convert a.unit p = .ok ⟨value, a.unit⟩ := by
  rw [valueIn, Outcome.map_eq_ok]
  constructor
  · rintro ⟨converted, h, rfl⟩
    obtain ⟨_, -, value, -, rfl⟩ := convert_eq_ok.mp h
    exact h
  · exact fun h => ⟨_, h, rfl⟩

theorem add_eq_ok : a.add b p = .ok result ↔
    a.dimension = b.dimension ∧ ∃ other, b.convert a.unit p = .ok ⟨other, a.unit⟩ ∧
      ∃ value, p.add a.value other = .ok value ∧ result = ⟨value, a.unit⟩ := by
  simp only [add, Outcome.bind_eq_ok, Outcome.pure_eq_ok, valueIn_eq_ok, eq_comm (b := result)]
  constructor
  · rintro ⟨⟨⟩, dimension, rest⟩
    exact ⟨checkDimension_eq_ok.mp dimension, rest⟩
  · rintro ⟨dimension, rest⟩
    exact ⟨⟨⟩, checkDimension_eq_ok.mpr dimension, rest⟩

theorem multiply_eq_ok : a.multiply b p = .ok result ↔
    ∃ value, p.multiply a.value b.value = .ok value ∧ result = ⟨value, a.unit.multiply b.unit⟩ := by
  simp only [multiply, Outcome.bind_eq_ok, Outcome.pure_eq_ok, eq_comm (b := result)]

theorem divide_eq_ok : a.divide b p = .ok result ↔
    ∃ value, p.divide a.value b.value = .ok value ∧ result = ⟨value, a.unit.divide b.unit⟩ := by
  simp only [divide, Outcome.bind_eq_ok, Outcome.pure_eq_ok, eq_comm (b := result)]

theorem subtract_eq_ok : a.subtract b p = .ok result ↔
    a.dimension = b.dimension ∧ ∃ other, b.convert a.unit p = .ok ⟨other, a.unit⟩ ∧
      ∃ value, p.subtract a.value other = .ok value ∧ result = ⟨value, a.unit⟩ := by
  simp only [subtract, Outcome.bind_eq_ok, Outcome.pure_eq_ok, valueIn_eq_ok,
    eq_comm (b := result)]
  constructor
  · rintro ⟨⟨⟩, dimension, rest⟩
    exact ⟨checkDimension_eq_ok.mp dimension, rest⟩
  · rintro ⟨dimension, rest⟩
    exact ⟨⟨⟩, checkDimension_eq_ok.mpr dimension, rest⟩

/-- Quantities in one unit are added by adding their values. -/
theorem add_of_same (same : b.unit = a.unit) (h : a.add b p = .ok result) :
    result.unit = a.unit ∧ p.add a.value b.value = .ok result.value := by
  obtain ⟨-, other, converted, value, sum, rfl⟩ := add_eq_ok.mp h
  rw [← same, convert_self] at converted
  have value_eq : b.value = other := congrArg Quantity.value (Except.ok.inj converted)
  exact ⟨rfl, value_eq ▸ sum⟩

/-- **A sum of quantities in one unit.** -/
theorem toRat_add (same : b.unit = a.unit) (h : a.add b p = .ok result) :
    result.unit = a.unit ∧ result.value.toRat = p.keep (a.value.toRat + b.value.toRat) := by
  obtain ⟨unit, sum⟩ := add_of_same same h
  exact ⟨unit, Precision.toRat_add sum⟩

/-- **A difference of quantities in one unit.** -/
theorem toRat_subtract (same : b.unit = a.unit) (h : a.subtract b p = .ok result) :
    result.unit = a.unit ∧ result.value.toRat = p.keep (a.value.toRat - b.value.toRat) := by
  obtain ⟨-, other, converted, value, difference, rfl⟩ := subtract_eq_ok.mp h
  rw [← same, convert_self] at converted
  have value_eq : b.value = other := congrArg Quantity.value (Except.ok.inj converted)
  exact ⟨rfl, value_eq ▸ Precision.toRat_subtract difference⟩

/-- A sum of values is one of quantities in one unit. -/
theorem add_eq_ok_of_same {value : Decimal} (same : b.unit = a.unit)
    (h : p.add a.value b.value = .ok value) : a.add b p = .ok ⟨value, a.unit⟩ := by
  have converted : b.convert a.unit p = .ok ⟨b.value, a.unit⟩ := by
    rw [← same]
    exact b.convert_self p
  have measures : a.dimension = b.dimension := by rw [dimension, dimension, same]
  exact add_eq_ok.mpr ⟨measures, b.value, converted, value, h, rfl⟩

/-- **A sum that makes up a quantity** is that quantity again. -/
theorem exists_add (ha : a.unit = q.unit) (hb : b.unit = q.unit)
    (eq : a.value.toRat + b.value.toRat = q.value.toRat)
    (digits : HasDigits p.digits q.value.toRat) :
    ∃ whole, a.add b p = .ok whole ∧ whole.same q = true := by
  obtain ⟨value, hvalue, sum⟩ := Precision.exists_add eq digits
  refine ⟨⟨value, a.unit⟩, add_eq_ok_of_same (hb.trans ha.symm) hvalue, ?_⟩
  rw [same, Bool.and_eq_true, Decimal.sameValue_iff, ha]
  exact ⟨sum, q.unit.same_self⟩

end Quantity

end Tariff
