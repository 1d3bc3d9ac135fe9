import Tariff.Document.Measures
import Tariff.Proofs.Measure.QuantityText
import Tariff.Proofs.Measure.Writing
import Tariff.Proofs.Outcome

/-!
# Documents of measures that are read again

What a value becomes when its document is read: the value itself, or one that differs from
it in the writing of numbers only.

## Main definitions

* `Document.Survives` — a value whose document is read as a related value
* `Document.stated?` — what a document states for one of several names
* `Quantity.IsWritable` — quantities in standard units

## Main statements

* `Document.Survives.option`, `Document.Survives.list` — values that may be missing, and lists
* `Document.survives_decimal`, `Document.survives_quantity`, `Document.survives_precision` —
  measures survive
* `Document.toPrecision_eq_ok` — the precisions that can be read
-/

namespace Tariff

open Text

namespace Document

variable {α : Type} {write : α → Document} {read : Document → Decoded α} {same : α → α → Prop}

/-- **A value survives** when its document is read as a related value. -/
def Survives (write : α → Document) (read : Document → Decoded α) (same : α → α → Prop) (a : α) :
    Prop :=
  ∃ b, read (write a) = .ok b ∧ same a b

/-- **A value that may be missing** survives if it does where it is there.  It must not be written
as null, which is how a missing value is written. -/
theorem Survives.option {a : Option α} (there : ∀ x, write x ≠ null)
    (h : ∀ x, a = some x → Survives write read same x) :
    ∃ b, toOption read (some (ofOption (a.map write))) = .ok b ∧ Option.Rel same a b := by
  cases a with
  | none => exact ⟨none, rfl, .none⟩
  | some x =>
      obtain ⟨b, hb, alike⟩ := h x rfl
      have value : toOption read (some (write x)) = some <$> read (write x) := by
        have not := there x
        cases written : write x with
        | null => exact absurd written not
        | _ => rfl
      refine ⟨some b, ?_, .some alike⟩
      rw [Option.map_some, ofOption, value, hb]
      rfl

/-- **A list survives** if each of its values does. -/
theorem Survives.list {items : List α} (h : ∀ x ∈ items, Survives write read same x) :
    ∃ others, (items.map write).mapM read = .ok others ∧ List.Forall₂ same items others := by
  induction items with
  | nil => exact ⟨[], rfl, .nil⟩
  | cons x rest ih =>
      obtain ⟨first, others⟩ := List.forall_mem_cons.mp h
      obtain ⟨b, hb, alike⟩ := first
      obtain ⟨bs, hbs, rests⟩ := ih others
      refine ⟨b :: bs, ?_, .cons alike rests⟩
      rw [List.map_cons, List.mapM_cons]
      exact Outcome.bind_eq_ok.mpr ⟨b, hb, Outcome.bind_eq_ok.mpr ⟨bs, hbs, rfl⟩⟩

/-- A value that must be there is read. -/
theorem required_eq_ok {value : Option Document} {a : α} :
    required read value = .ok a ↔ ∃ there, value = some there ∧ read there = .ok a := by
  cases value with
  | none => simp [required]
  | some there => simp [required]

/-- What a document states for one of several names. -/
def stated? (names : List String) (name : String) (document : Document) : Option Document :=
  (document.fields? names).bind fun values => ((names.zip values).lookup name).join

/-! ## Decimals and quantities -/

/-- The text of a decimal has no power of ten. -/
theorem readScaled_text (d : Decimal) : Decimal.readScaled d.text = Decimal.readChars d.chars := by
  have plain : ∀ c ∈ Decimal.magnitudeText d.mantissa d.scale, Decimal.marksPower c = false := by
    intro c mem
    rcases Decimal.digit_or_point mem with digit | rfl
    · exact of_isDigit (p := fun c => Decimal.marksPower c = false) (by decide) digit
    · decide
  have unsigned : ∀ c ∈ d.chars, Decimal.marksPower c = false := by
    rw [Decimal.chars]
    split
    · exact List.forall_mem_cons.mpr ⟨by decide, plain⟩
    · exact plain
  rw [Decimal.readScaled, Decimal.text, String.toList_ofList, cutAt_of_forall unsigned]

/-- **Decimals survive.** -/
theorem survives_decimal {d : Decimal} (few : d.scale ≤ maxPlaces) :
    Survives ofDecimal toDecimal Decimal.Alike d := by
  obtain ⟨d', read, number, -⟩ := Decimal.readChars_chars few
  refine ⟨d', ?_, number.symm⟩
  rw [ofDecimal, toDecimal, readScaled_text, read]
  rfl

end Document

/-- **Quantities that can be written** are in standard units whose exponents are in range, and their
values have no more places than are stored. -/
structure Quantity.IsWritable (q : Quantity) : Prop where
  /-- The unit is built from standard ones. -/
  unit : q.unit.IsStandard
  /-- Its exponents are all written: they have 32 bits, and none is the least one. -/
  range : ∀ factor e, (factor, e) ∈ q.unit.factors → e.natAbs < 2 ^ 31
  /-- The value has no more places than are stored. -/
  few : q.value.scale ≤ maxPlaces

/-- A precision is made of its digits and its mode. -/
theorem Precision.of_eq_ok {digits : ℕ} {mode : RoundingMode} {p : Precision} :
    Precision.of digits mode = .ok p ↔ p.digits = digits ∧ p.mode = mode := by
  obtain ⟨n, m, pos, le⟩ := p
  rw [Precision.of]
  split
  · next range =>
      simp only [Except.ok.injEq, Precision.mk.injEq]
      exact and_congr eq_comm eq_comm
  · next outside =>
      simp only [reduceCtorEq, false_iff, not_and]
      rintro rfl
      exact absurd ⟨pos, le⟩ outside

namespace Document

/-- **Quantities survive.** -/
theorem survives_quantity {q : Quantity} (writable : q.IsWritable) :
    Survives ofQuantity toQuantity Quantity.Alike q := by
  obtain ⟨value, read, number, -⟩ :=
    Quantity.exists_read_text writable.unit writable.range writable.few
  refine ⟨⟨value, q.unit⟩, ?_, number.symm, rfl⟩
  rw [ofQuantity, toQuantity, toText]
  exact Outcome.bind_eq_ok.mpr ⟨q.text, rfl, by rw [read]; rfl⟩

/-! ## Precisions -/

/-- Modes are named in different ways. -/
theorem modeNamed_modeName (mode : RoundingMode) : modeNamed (modeName mode) = .ok mode := by
  cases mode <;> decide

theorem toCount_eq_ok {document : Document} {n : ℕ} :
    toCount document = .ok n ↔ document = integer n ∧ (n : ℤ) ≤ maxCount := by
  cases document with
  | integer m =>
      rw [toCount, integer.injEq]
      split
      · next range =>
          rw [Except.ok.injEq]
          omega
      · next outside =>
          simp only [reduceCtorEq, false_iff, not_and]
          omega
  | _ => simp [toCount]

/-- **The precisions that can be read.**  A document states from one to twenty-eight digits, and the
mode, which is half-even where it is not stated. -/
theorem toPrecision_eq_ok {document : Document} {p : Precision} : toPrecision document = .ok p ↔
    ∃ mode, document.fields? ["precision", "rounding"] = some [some (integer p.digits), mode] ∧
      orElse .halfEven toMode mode = .ok p.mode := by
  have few : (p.digits : ℤ) ≤ maxCount := by
    have le := p.digits_le
    rw [maxCount]
    omega
  rw [toPrecision]
  split
  · next digits mode fields =>
      simp only [fields, Outcome.bind_eq_ok, required_eq_ok, toCount_eq_ok, Option.some.injEq,
        List.cons.injEq, and_true]
      constructor
      · rintro ⟨n, ⟨_, rfl, rfl, -⟩, m, hm, made⟩
        have made : Precision.of n m = .ok p := by
          cases made' : Precision.of n m with
          | ok q => simpa [made', Decoded.ofMeasured] using made
          | error e => simp [made', Decoded.ofMeasured] at made
        obtain ⟨rfl, rfl⟩ := Precision.of_eq_ok.mp made
        exact ⟨mode, ⟨rfl, rfl⟩, hm⟩
      · rintro ⟨_, ⟨rfl, rfl⟩, hm⟩
        refine ⟨p.digits, ⟨_, rfl, rfl, few⟩, p.mode, hm, ?_⟩
        rw [Precision.of_eq_ok.mpr ⟨rfl, rfl⟩, Decoded.ofMeasured]
  · next other =>
      simp only [reduceCtorEq, false_iff, not_exists, not_and]
      exact fun mode fields => absurd fields (other _ _)

/-- **Precisions survive** as they are. -/
theorem survives_precision (p : Precision) : Survives ofPrecision toPrecision (· = ·) p := by
  refine ⟨p, toPrecision_eq_ok.mpr ⟨some (ofMode p.mode), ?_, modeNamed_modeName p.mode⟩, rfl⟩
  simp [ofPrecision, fields?, member?]

end Document

end Tariff
