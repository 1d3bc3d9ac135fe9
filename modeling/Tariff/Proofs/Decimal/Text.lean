import Tariff.Decimal.Notation
import Tariff.Proofs.Decimal.Value
import Tariff.Proofs.Text.Reading

/-!
# Reading the text of a decimal

A decimal is written with all its digits, and so all of them are read again.  The only
thing that is lost is the sign of a zero.

## Main statements

* `Decimal.readDigits_whole`, `Decimal.readDigits_places` — runs of digits before and
  behind the point
* `Decimal.exists_magnitudeText` — what is written of a mantissa and a scale
* `Decimal.readChars_chars` — a decimal reads back with its number and its scale
-/

namespace Tariff

open Text

namespace Text

variable {c : Char} {width n : ℕ}

/-! ## Padded digits -/

theorem isDigit_of_mem_padded (h : c ∈ padded width n) : isDigit c = true := by
  rw [padded, List.mem_append] at h
  rcases h with h | h
  · rw [List.eq_of_mem_replicate h]
    decide
  · exact isDigit_of_mem_digits h

theorem le_length_padded (width n : ℕ) : width ≤ (padded width n).length := by
  rw [padded, List.length_append, List.length_replicate]
  omega

/-- A number of few digits is filled up to the width. -/
theorem length_padded (pos : 0 < width) (small : n < 10 ^ width) :
    (padded width n).length = width := by
  have few : (digits n).length ≤ width := (Nat.length_toDigits_le_iff (by decide) pos).mpr small
  rw [padded, List.length_append, List.length_replicate]
  omega

/-- Zeros in front count for nothing. -/
theorem ofDigitChars_padded (width n : ℕ) : Nat.ofDigitChars 10 (padded width n) 0 = n := by
  rw [padded, Nat.ofDigitChars_append, Nat.ofDigitChars_replicate_zero, Nat.mul_zero]
  exact Nat.ofDigitChars_ten_toDigits

/-- **Padded digits read back** as their number. -/
theorem readNat?_padded (width n : ℕ) : readNat? (padded width n) = some n := by
  have ne : padded width n ≠ [] := by
    rw [padded, ne_eq, List.append_eq_nil_iff]
    exact fun h => digits_ne_nil n h.2
  have all : (padded width n).all isDigit = true :=
    List.all_eq_true.mpr fun c mem => isDigit_of_mem_padded mem
  rw [readNat?, if_neg (by simp [ne, all]), digitsValue, ofDigitChars_padded]

/-- A number does not become less by further digits. -/
theorem le_ofDigitChars (run : List Char) (m : ℕ) : m ≤ Nat.ofDigitChars 10 run m := by
  induction run generalizing m with
  | nil => exact le_rfl
  | cons c rest ih =>
      rw [Nat.ofDigitChars_cons]
      refine le_trans ?_ (ih _)
      omega

/-- A number has no more digits than it is written with. -/
theorem ofDigitChars_lt {run : List Char} (digits : ∀ c ∈ run, isDigit c = true) (m : ℕ) :
    Nat.ofDigitChars 10 run m < (m + 1) * 10 ^ run.length := by
  induction run generalizing m with
  | nil => simp
  | cons c rest ih =>
      obtain ⟨first, others⟩ := List.forall_mem_cons.mp digits
      have small : c.toNat - '0'.toNat < 10 :=
        of_isDigit (p := fun c => c.toNat - '0'.toNat < 10) (by decide) first
      rw [Nat.ofDigitChars_cons, List.length_cons, Nat.pow_succ, Nat.mul_comm (10 ^ rest.length),
        ← Nat.mul_assoc]
      refine (ih others _).trans_le (Nat.mul_le_mul_right _ ?_)
      omega

end Text

namespace Decimal

variable {negative seen : Bool} {run rest : List Char} {mantissa scale : ℕ} {d : Decimal}

/-! ## Runs of digits -/

/-- **Digits before the point** are read one after the other. -/
theorem readDigits_whole (digits : ∀ c ∈ run, isDigit c = true)
    (room : Nat.ofDigitChars 10 run mantissa < mantissaLimit) :
    readDigits negative (run ++ rest) ⟨mantissa, 0, false, seen⟩ =
      readDigits negative rest
        ⟨Nat.ofDigitChars 10 run mantissa, 0, false, seen || !run.isEmpty⟩ := by
  induction run generalizing mantissa seen with
  | nil => simp
  | cons c others ih =>
      obtain ⟨first, digits⟩ := List.forall_mem_cons.mp digits
      rw [Nat.ofDigitChars_cons] at room ⊢
      have value : digitsValue [c] = c.toNat - '0'.toNat := by simp [digitsValue, Nat.ofDigitChars]
      have small := (le_ofDigitChars others _).trans_lt room
      rw [List.cons_append, readDigits, if_pos first, if_neg Bool.false_ne_true, value,
        if_pos small, ih digits room]
      simp

/-- **Digits behind the point** are read as long as there is a place for them. -/
theorem readDigits_places (digits : ∀ c ∈ run, isDigit c = true)
    (room : Nat.ofDigitChars 10 run mantissa < mantissaLimit)
    (few : scale + run.length ≤ maxPlaces) :
    readDigits negative run ⟨mantissa, scale, true, true⟩ =
      finish negative ⟨Nat.ofDigitChars 10 run mantissa, scale + run.length, true, true⟩ := by
  induction run generalizing mantissa scale with
  | nil => rfl
  | cons c others ih =>
      obtain ⟨first, digits⟩ := List.forall_mem_cons.mp digits
      rw [Nat.ofDigitChars_cons] at room ⊢
      rw [List.length_cons] at few ⊢
      have value : digitsValue [c] = c.toNat - '0'.toNat := by simp [digitsValue, Nat.ofDigitChars]
      have small := (le_ofDigitChars others _).trans_lt room
      have place : scale < maxPlaces := by omega
      rw [readDigits, if_pos first, if_pos rfl, value, if_pos ⟨place, small⟩]
      dsimp only
      rw [ih digits room (by omega), Nat.add_right_comm, Nat.add_assoc]

/-! ## What is written -/

/-- **What is written of a mantissa**: a first run of digits, and behind the point a second one as
long as the scale. -/
theorem exists_magnitudeText (mantissa scale : ℕ) : ∃ whole places : List Char,
    whole ≠ [] ∧ (∀ c ∈ whole, isDigit c = true) ∧ (∀ c ∈ places, isDigit c = true) ∧
      places.length = scale ∧ Nat.ofDigitChars 10 places (Nat.ofDigitChars 10 whole 0) = mantissa ∧
      magnitudeText mantissa scale =
        if places.isEmpty then whole else whole ++ '.' :: places := by
  have long := le_length_padded (scale + 1) mantissa
  have digits : ∀ c ∈ padded (scale + 1) mantissa, isDigit c = true :=
    fun c mem => isDigit_of_mem_padded mem
  have value := ofDigitChars_padded (scale + 1) mantissa
  simp only [magnitudeText, List.splitAt_eq]
  generalize padded (scale + 1) mantissa = run at long digits value
  refine ⟨run.take (run.length - scale), run.drop (run.length - scale), ?_, ?_, ?_, ?_, ?_, rfl⟩
  · rw [ne_eq, List.take_eq_nil_iff]
    rintro (none | rfl)
    · omega
    · simp at long
  · exact fun c mem => digits c (List.mem_of_mem_take mem)
  · exact fun c mem => digits c (List.mem_of_mem_drop mem)
  · rw [List.length_drop]
    omega
  · rw [← Nat.ofDigitChars_append, List.take_append_drop, value]

/-- What is written of a mantissa begins with a digit. -/
theorem exists_magnitudeText_eq_cons (mantissa scale : ℕ) : ∃ c rest,
    magnitudeText mantissa scale = c :: rest ∧ isDigit c = true := by
  obtain ⟨whole, places, ne, digits, -, -, -, written⟩ := exists_magnitudeText mantissa scale
  obtain ⟨c, rest, rfl⟩ := List.exists_cons_of_ne_nil ne
  rw [written]
  split
  · exact ⟨c, _, rfl, digits c List.mem_cons_self⟩
  · exact ⟨c, _, rfl, digits c List.mem_cons_self⟩

/-- It has nothing in it but digits and the point. -/
theorem digit_or_point {c : Char} (h : c ∈ magnitudeText mantissa scale) :
    isDigit c = true ∨ c = '.' := by
  obtain ⟨whole, places, -, digits, digits', -, -, written⟩ := exists_magnitudeText mantissa scale
  rw [written] at h
  split at h
  · exact .inl (digits c h)
  · rcases List.mem_append.mp h with h | h
    · exact .inl (digits c h)
    · rcases List.mem_cons.mp h with rfl | h
      · exact .inr rfl
      · exact .inl (digits' c h)

/-! ## Reading back -/

/-- The number and the scale of a reading are those of the decimal that is made of it. -/
theorem finish_eq_ok (room : mantissa < mantissaLimit) (few : scale ≤ maxPlaces) :
    ∃ d : Decimal, finish negative ⟨mantissa, scale, seen, true⟩ = .ok d ∧
      d.negative = (negative && mantissa != 0) ∧ d.mantissa = mantissa ∧ d.scale = scale := by
  have whole : tenTo (scale - maxPlaces) ∣ mantissa := by
    rw [Nat.sub_eq_zero_of_le few, tenTo_zero]
    exact Nat.one_dvd _
  refine ⟨⟨negative && mantissa != 0, mantissa, scale, room, whole⟩, ?_, rfl, rfl, rfl⟩
  rw [finish, if_pos rfl, ofParts?, dif_pos ⟨room, whole⟩]

/-- The digits of a decimal are read as its mantissa and its scale. -/
theorem readDigits_magnitudeText (room : mantissa < mantissaLimit) (few : scale ≤ maxPlaces) :
    ∃ d : Decimal, readDigits negative (magnitudeText mantissa scale) .start = .ok d ∧
      d.negative = (negative && mantissa != 0) ∧ d.mantissa = mantissa ∧ d.scale = scale := by
  obtain ⟨whole, places, ne, digits, digits', rfl, value, written⟩ :=
    exists_magnitudeText mantissa scale
  have start := (le_ofDigitChars places _).trans_lt (value ▸ room)
  have some : (false || !whole.isEmpty) = true := by simpa using ne
  rw [written, Reading.start]
  split
  · next empty =>
      obtain rfl := List.isEmpty_iff.mp empty
      rw [← List.append_nil whole, readDigits_whole digits start, some, readDigits]
      rw [Nat.ofDigitChars_nil] at value
      rw [value]
      exact finish_eq_ok room few
  · rw [readDigits_whole digits start, some, readDigits, if_neg (by decide), if_pos ⟨rfl, rfl⟩]
    dsimp only
    rw [readDigits_places digits' (value ▸ room) (by omega), value, Nat.zero_add]
    exact finish_eq_ok room few

/-- **A decimal reads back** with its number and its scale. -/
theorem readChars_chars (few : d.scale ≤ maxPlaces) :
    ∃ d' : Decimal, readChars d.chars = .ok d' ∧ d'.toRat = d.toRat ∧ d'.scale = d.scale := by
  have read : ∃ d' : Decimal, readChars d.chars = .ok d' ∧
      d'.negative = (d.negative && d.mantissa != 0) ∧ d'.mantissa = d.mantissa ∧
        d'.scale = d.scale := by
    rw [chars]
    split
    · next negative =>
        rw [negative, readChars]
        exact readDigits_magnitudeText d.mantissa_lt few
    · next positive =>
        obtain ⟨c, rest, written, digit⟩ := exists_magnitudeText_eq_cons d.mantissa d.scale
        obtain ⟨-, minus, plus⟩ := solid_of_isDigit digit
        have unsigned : readChars (c :: rest) = readDigits false (c :: rest) .start := by
          simp [readChars, minus, plus]
        rw [written, unsigned, ← written, Bool.eq_false_of_not_eq_true positive]
        exact readDigits_magnitudeText d.mantissa_lt few
  obtain ⟨d', read, negative, mantissa, scale⟩ := read
  refine ⟨d', read, ?_, scale⟩
  rw [toRat, toRat, signedMantissa, signedMantissa, negative, mantissa, scale]
  rcases Nat.eq_zero_or_pos d.mantissa with zero | positive
  · simp [zero]
  · simp [positive.ne']

end Decimal

end Tariff
