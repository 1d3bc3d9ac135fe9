import Tariff.Proofs.Measure.Dimensional

/-!
# Which units convert

Each side of a conversion is a product of one side of both reductions.  Seen from the other
unit the factors of these products change places, and the two products do: the conversion
back is the same fraction turned over.  It is there, or fails, for the same reasons.

## Main definitions

* `Conversion.turned` — what becomes of a conversion, seen from the other unit
* `MeasureUnit.Commensurable` — units that lack nothing but room to be converted

## Main statements

* `MeasureUnit.conversionTo_comm` — conversions in both directions come out alike
* `MeasureUnit.commensurable_of_conversionTo` — units that convert are commensurable
* `MeasureUnit.conversionTo_symm_trans` — convertibility is symmetric, and transitive
  where there is room

## Design notes

Whether there is room for a fraction depends on both of its units.  Two conversions that are
there do not make room for the third one, and all that can be said of it is that it fails by
overflow, if it fails.  The relation behind this, which is an equivalence, does not mention
room: equal dimensions and equal degrees in every root unit.
-/

namespace Tariff

/-! ## Fractions turned over -/

namespace Decimal

/-- **Products are commutative** as they are stored, with the places they are written to. -/
theorem multiply?_comm (a b : Decimal) : a.multiply? b = b.multiply? a := by
  have signs : (b.negative != a.negative) = (a.negative != b.negative) := bne_comm
  simp only [multiply?, Bool.or_comm b.isZero, signs, Nat.mul_comm b.mantissa,
    Nat.add_comm b.scale]

theorem sameValue_comm (a b : Decimal) : a.sameValue b = b.sameValue a := by
  rw [Bool.eq_iff_iff, sameValue_iff, sameValue_iff, eq_comm]

end Decimal

namespace Conversion

/-- The inverse of a fraction has its sides exchanged. -/
theorem inverse_ofFraction (numerator denominator : Decimal) :
    (ofFraction numerator denominator).inverse = ofFraction denominator numerator := by
  rw [ofFraction, ofFraction, Decimal.sameValue_comm denominator]
  split <;> rfl

/-- **What becomes of a conversion**, seen from the other unit. -/
def turned : Measured Conversion → Measured Conversion
  | .ok conversion => .ok conversion.inverse
  | .error (.unconvertible source target) => .error (.unconvertible target source)
  | .error e => .error e

@[simp]
theorem turned_turned (x : Measured Conversion) : turned (turned x) = x := by
  rcases x with e | conversion
  · cases e <;> rfl
  · rfl

/-- Turning over is its own inverse. -/
theorem eq_turned_iff {x y : Measured Conversion} : x = turned y ↔ turned x = y := by
  constructor <;> rintro rfl
  · exact turned_turned y
  · exact (turned_turned x).symm

end Conversion

namespace MeasureUnit

open Conversion

variable {a b c : MeasureUnit} {conversion : Conversion}

/-! ## Conversions in both directions -/

/-- Between reduced units both sides of the fraction are exchanged, and the factors in them. -/
theorem reducedConversion_comm (a b : MeasureUnit) (r s : Reduction) :
    reducedConversion b a s r = turned (reducedConversion a b r s) := by
  rw [reducedConversion, reducedConversion, Decimal.multiply?_comm s.numerator,
    Decimal.multiply?_comm s.denominator]
  by_cases roots : r.roots = s.roots
  · rw [if_pos roots, if_pos roots.symm]
    cases r.numerator.multiply? s.denominator with
    | none => cases r.denominator.multiply? s.numerator <;> rfl
    | some numerator =>
        cases r.denominator.multiply? s.numerator with
        | none => rfl
        | some denominator =>
            exact congrArg Except.ok (inverse_ofFraction numerator denominator).symm
  · rw [if_neg roots, if_neg (Ne.symm roots)]
    rfl

/-- **Conversions in both directions come out alike**, also where there are none. -/
theorem conversionTo_comm (a b : MeasureUnit) : b.conversionTo a = turned (a.conversionTo b) := by
  have compatible : b.compatible a = a.compatible b := BEq.comm
  rw [conversionTo, conversionTo, same_comm b, compatible]
  split
  · rfl
  · split
    · cases a.reduce? with
      | none => cases b.reduce? <;> rfl
      | some r =>
          cases b.reduce? with
          | none => rfl
          | some s => exact reducedConversion_comm a b r s
    · rfl

/-! ## Commensurable units -/

/-- **Commensurable units** measure the same and have the same roots. -/
def Commensurable (a b : MeasureUnit) : Prop :=
  a.dimension = b.dimension ∧ ∀ symbol, a.degree symbol = b.degree symbol

theorem Commensurable.symm (h : a.Commensurable b) : b.Commensurable a :=
  ⟨h.1.symm, fun symbol => (h.2 symbol).symm⟩

theorem Commensurable.trans (h : a.Commensurable b) (h' : b.Commensurable c) : a.Commensurable c :=
  ⟨h.1.trans h'.1, fun symbol => (h.2 symbol).trans (h'.2 symbol)⟩

/-- **What is converted** is commensurable. -/
theorem commensurable_of_conversionTo (h : a.conversionTo b = .ok conversion) :
    a.Commensurable b := by
  refine ⟨dimension_eq_of_conversionTo h, fun symbol => ?_⟩
  rcases conversionTo_eq_ok h with ⟨same, -⟩ | ⟨r, t, hr, ht, roots, -⟩
  · exact degree_eq_of_same symbol a b same
  · rw [← exponentOf_roots symbol a hr, ← exponentOf_roots symbol b ht, roots]

/-- Commensurable units are not said to have no factor between them. -/
theorem Commensurable.conversionTo_ne (h : a.Commensurable b) (source target : String) :
    a.conversionTo b ≠ .error (.unconvertible source target) := by
  intro fails
  have room : MeasureError.unconvertible source target = .overflow :=
    conversionTo_of_degree h.1 h.2 _ fails
  cases room

/-- **Convertibility is symmetric, and transitive where there is room.**  The conversion back is
the inverse one; both directions fail together, for want of a factor or for want of room.  If one
unit converts to a second one and that to a third one, the first and the third have a factor
between them. -/
theorem conversionTo_symm_trans (a b c : MeasureUnit) :
    (∀ conversion, a.conversionTo b = .ok conversion ↔
      b.conversionTo a = .ok conversion.inverse) ∧
    (∀ source target, a.conversionTo b = .error (.unconvertible source target) ↔
      b.conversionTo a = .error (.unconvertible target source)) ∧
    (a.conversionTo b = .error .overflow ↔ b.conversionTo a = .error .overflow) ∧
    (∀ first second, a.conversionTo b = .ok first → b.conversionTo c = .ok second →
      ∀ source target, a.conversionTo c ≠ .error (.unconvertible source target)) := by
  have turn : ∀ x, a.conversionTo b = x ↔ b.conversionTo a = turned x := by
    intro x
    rw [conversionTo_comm a b, eq_turned_iff, turned_turned]
  refine ⟨fun conversion => turn _, fun source target => turn _, turn _, ?_⟩
  intro first second there further
  exact ((commensurable_of_conversionTo there).trans
    (commensurable_of_conversionTo further)).conversionTo_ne

/-- A price in cents for a kilowatt hour, in euros for a megawatt hour and in euros for a joule. -/
theorem conversionTo_symm_trans_prices :
    ∃ there further back,
      (pricePer "EUR" true kilowattHour).conversionTo (pricePer "EUR" false megawattHour) =
        .ok there ∧
      (pricePer "EUR" false megawattHour).conversionTo (pricePer "EUR" false joule) = .ok further ∧
      (pricePer "EUR" false megawattHour).conversionTo (pricePer "EUR" true kilowattHour) =
        .ok back ∧ back.inverse = there ∧
      ∀ source target,
        (pricePer "EUR" true kilowattHour).conversionTo (pricePer "EUR" false joule) ≠
          .error (.unconvertible source target) := by
  have laws := conversionTo_symm_trans (pricePer "EUR" true kilowattHour)
    (pricePer "EUR" false megawattHour) (pricePer "EUR" false joule)
  have energy : kilowattHour ∈ energyUnits ∧ megawattHour ∈ energyUnits ∧ joule ∈ energyUnits := by
    simp [energyUnits]
  obtain ⟨there, hthere, -⟩ := exists_conversion_pricePer "EUR" true false energy.1 energy.2.1
  obtain ⟨further, hfurther, -⟩ :=
    exists_conversion_pricePer "EUR" false false energy.2.1 energy.2.2
  exact ⟨there, further, there.inverse, hthere, hfurther, (laws.1 there).mp hthere, rfl,
    laws.2.2.2 there further hthere hfurther⟩

end MeasureUnit

end Tariff
