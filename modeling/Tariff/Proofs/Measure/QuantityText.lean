import Tariff.Measure.Quantity
import Tariff.Proofs.Decimal.Text
import Tariff.Proofs.Measure.UnitText

/-!
# Reading the text of a quantity

A quantity is written as its value and the symbol of its unit with a space between them, or
as its value alone if it is a plain number.

## Main statements

* `Quantity.splitValue_chars` — the value is parted from what stands behind it
* `Quantity.exists_read_text` — a quantity in a standard unit reads back
* `MeasureUnit.IsStandard.read_symbol_and_text` — standard units read back, alone and
  behind a value

## Design notes

Of the value only the number and the scale come back: a zero may have lost its sign.
-/

namespace Tariff

open Text

namespace Quantity

variable {value : Decimal} {tail : List Char}

theorem inValue_of_mem_magnitudeText {mantissa scale : ℕ} :
    ∀ c ∈ Decimal.magnitudeText mantissa scale, inValue c = true := by
  intro c mem
  rcases Decimal.digit_or_point mem with digit | rfl
  · rw [inValue, digit, Bool.true_or]
  · decide

/-- **The value is parted** from what stands behind it. -/
theorem splitValue_chars (boundary : ∀ c ∈ tail.head?, inValue c = false) :
    splitValue (value.chars ++ tail) = (value.chars, tail) := by
  have inside : ∀ c ∈ Decimal.magnitudeText value.mantissa value.scale, inValue c = true :=
    inValue_of_mem_magnitudeText
  rw [Decimal.chars]
  split
  · rw [List.cons_append, splitValue, if_pos (by decide), takeWhile_append_eq inside boundary,
      dropWhile_append_eq inside boundary]
  · obtain ⟨c, rest, written, digit⟩ :=
      Decimal.exists_magnitudeText_eq_cons value.mantissa value.scale
    obtain ⟨-, minus, plus⟩ := solid_of_isDigit digit
    rw [written] at inside ⊢
    rw [List.cons_append, splitValue, if_neg (by simp [minus, plus]), ← List.cons_append,
      takeWhile_append_eq inside boundary, dropWhile_append_eq inside boundary]

/-- A value has no blanks. -/
theorem isBlank_of_mem_chars : ∀ c ∈ value.chars, isBlank c = false := by
  have solid : ∀ c ∈ Decimal.magnitudeText value.mantissa value.scale, isBlank c = false := by
    intro c mem
    rcases Decimal.digit_or_point mem with digit | rfl
    · exact (solid_of_isDigit digit).1
    · decide
  rw [Decimal.chars]
  split
  · exact List.forall_mem_cons.mpr ⟨by decide, solid⟩
  · exact solid

/-- It is more than a sign. -/
theorem isBareSign_chars (value : Decimal) : isBareSign value.chars = false := by
  obtain ⟨c, rest, written, digit⟩ :=
    Decimal.exists_magnitudeText_eq_cons value.mantissa value.scale
  obtain ⟨-, minus, plus⟩ := solid_of_isDigit digit
  rw [Decimal.chars, written]
  split <;> simp [isBareSign, minus, plus]

/-- **A value is read**, and what stands behind it is the unit. -/
theorem readIn_append {catalogue : Catalogue} {input : String} {value' : Decimal}
    (written : input.toList = value.chars ++ tail)
    (boundary : ∀ c ∈ tail.head?, inValue c = false)
    (last : ∀ c ∈ (value.chars ++ tail).getLast?, isBlank c = false)
    (read : Decimal.readChars value.chars = .ok value') :
    readIn catalogue input =
      if (trim tail).isEmpty then .ok (plain value')
      else Quantity.mk value' <$> catalogue.readChars (trim tail) := by
  have ne : value.chars ≠ [] := by
    intro empty
    have bare := isBareSign_chars value
    rw [empty] at bare
    cases bare
  have first : ∀ c ∈ (value.chars ++ tail).head?, isBlank c = false := by
    intro c head
    rw [List.head?_append_of_ne_nil _ ne] at head
    exact isBlank_of_mem_chars c (List.mem_of_mem_head? head)
  rw [readIn, written, trim_eq_self first last, if_neg (by simp [ne]), splitValue_chars boundary]
  dsimp only
  rw [isBareSign_chars, if_neg Bool.false_ne_true, read]

/-- **A quantity in a standard unit reads back**, with its unit, its number and its scale. -/
theorem exists_read_text {unit : MeasureUnit} (standard : unit.IsStandard)
    (range : ∀ factor e, (factor, e) ∈ unit.factors → e.natAbs < 2 ^ 31)
    (few : value.scale ≤ maxPlaces) : ∃ value' : Decimal,
      read (text ⟨value, unit⟩) = .ok ⟨value', unit⟩ ∧
        value'.toRat = value.toRat ∧ value'.scale = value.scale := by
  obtain ⟨value', read, number, scale⟩ := Decimal.readChars_chars few
  refine ⟨value', ?_, number, scale⟩
  rw [Quantity.read]
  cases plain : unit.isOne with
  | true =>
      have written : (text ⟨value, unit⟩).toList = value.chars ++ [] := by
        rw [text, if_pos plain, Decimal.text, String.toList_ofList, List.append_nil]
      have last : ∀ c ∈ (value.chars ++ []).getLast?, isBlank c = false := by
        rw [List.append_nil]
        exact fun c last => isBlank_of_mem_chars c (List.mem_of_getLast? last)
      rw [readIn_append written (by simp) last read, standard.eq_one plain]
      rfl
  | false =>
      obtain ⟨solid, ne⟩ := standard.solid_symbol
      have written : (text ⟨value, unit⟩).toList = value.chars ++ ' ' :: unit.symbol.toList := by
        rw [text, if_neg (by rw [plain]; decide), Decimal.text, String.toList_append,
          String.toList_append, String.toList_ofList, List.append_assoc]
        rfl
      have last : ∀ c ∈ (value.chars ++ ' ' :: unit.symbol.toList).getLast?, isBlank c = false := by
        intro c last
        rw [List.getLast?_append_of_ne_nil _ (List.cons_ne_nil _ _),
          List.getLast?_cons_of_ne_nil ne] at last
        exact solid c (List.mem_of_getLast? last)
      have behind : trim (' ' :: unit.symbol.toList) = unit.symbol.toList := by
        have blank : isBlank ' ' = true := by decide
        rw [trim, trimStart, List.dropWhile_cons_of_pos blank]
        exact trim_of_forall solid
      rw [readIn_append written (by simp; decide) last read, behind, if_neg (by simp [ne])]
      have symbol : Catalogue.standard.readChars unit.symbol.toList = .ok unit :=
        standard.read_symbol range
      rw [symbol]
      rfl

end Quantity

namespace MeasureUnit

/-- **Standard units read back** from their symbols, and quantities in them from their text: with
the unit as it was built, the number and the scale of the value. -/
theorem IsStandard.read_symbol_and_text {unit : MeasureUnit} (standard : unit.IsStandard)
    (range : ∀ factor e, (factor, e) ∈ unit.factors → e.natAbs < 2 ^ 31) :
    Catalogue.standard.read unit.symbol = .ok unit ∧
      ∀ value : Decimal, value.scale ≤ maxPlaces → ∃ value' : Decimal,
        Quantity.read (Quantity.text ⟨value, unit⟩) = .ok ⟨value', unit⟩ ∧
          value'.toRat = value.toRat ∧ value'.scale = value.scale :=
  ⟨standard.read_symbol range, fun _ few => Quantity.exists_read_text standard range few⟩

/-- Minus 3.40 cents for the square of a kilowatt hour. -/
theorem read_centPerSquare : ∃ unit : MeasureUnit,
    unit = (pricePer "EUR" true kilowattHour).divide kilowattHour ∧
      Catalogue.standard.read unit.symbol = .ok unit ∧ ∃ value' : Decimal,
        Quantity.read (Quantity.text ⟨(Decimal.ofDigits 340 2).negate, unit⟩) = .ok ⟨value', unit⟩ ∧
          value'.toRat = -(17 / 5) ∧ value'.scale = 2 := by
  have cent : (money "EUR" true).IsStandard := .given ⟨"c", rfl⟩
  have energy : kilowattHour.IsStandard := .given ⟨"kWh", rfl⟩
  have standard : ((pricePer "EUR" true kilowattHour).divide kilowattHour).IsStandard :=
    .divide (.divide cent energy) energy
  have factors : ((pricePer "EUR" true kilowattHour).divide kilowattHour).factors =
      [(money "EUR" true, 1), (kilowattHour, -2)] := by rfl
  have range : ∀ factor e,
      (factor, e) ∈ ((pricePer "EUR" true kilowattHour).divide kilowattHour).factors →
        e.natAbs < 2 ^ 31 := by
    rw [factors]
    intro factor e mem
    rcases List.mem_pair.mp mem with eq | eq <;> obtain ⟨-, rfl⟩ := Prod.mk.inj eq <;> decide
  obtain ⟨read, text⟩ := IsStandard.read_symbol_and_text standard range
  obtain ⟨value', back, number, scale⟩ := text (Decimal.ofDigits 340 2).negate (by decide)
  refine ⟨_, rfl, read, value', back, ?_, scale⟩
  rw [number, Decimal.toRat_negate, Decimal.toRat_ofDigits (by decide) (by decide)]
  norm_num [tenTo]

end MeasureUnit

end Tariff
