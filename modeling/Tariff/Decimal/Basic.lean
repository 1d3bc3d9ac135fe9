/-!
# Decimals

A decimal is a sign, a mantissa of at most 96 bits and a scale: the number of digits of the mantissa
that stand after the decimal point.

## Main definitions

* `tenTo` — a power of ten
* `Decimal` — sign, mantissa and scale within their bounds
* `Decimal.toRat` — the rational number that a decimal denotes
* `Decimal.compare`, `Decimal.sameValue` — order and equality of the numbers denoted
* `Decimal.negate`, `Decimal.abs`, `Decimal.normalize` — operations that never round

## Main statements

* `tenTo_add` — moving the point by two distances, one after the other
* `Decimal.dvd_dropZeros` — the shortest writing of a number is again a decimal
* `Decimal.ofParts?_eq_some_iff` — parts within the bounds make a decimal of just these parts

## Design notes

One number has several decimals: `1`, `1.0` and `1.00` differ in scale, and the scale is kept
because it is shown.  Equality of the structure therefore says "written alike", and `sameValue`
says "of equal value".  A zero may carry a sign.

The bounds are fields of the structure, so that every decimal at hand fits its storage and no
operation has to check its arguments.  A number has at most `maxPlaces` digits after the point that
count.  Behind them there may be zeros, which rounding to significant digits puts behind a short
mantissa.
-/

namespace Tariff

/-! ### Powers of ten -/

/-- Ten to a power. -/
def tenTo (n : Nat) : Nat :=
  Nat.pow 10 n

/-- The power zero is one. -/
@[simp]
theorem tenTo_zero : tenTo 0 = 1 := rfl

/-- The next power is ten times as large. -/
theorem tenTo_succ (n : Nat) : tenTo (n + 1) = tenTo n * 10 := rfl

/-- No power of ten is zero. -/
theorem tenTo_pos (n : Nat) : 0 < tenTo n := by
  induction n with
  | zero => decide
  | succ n ih =>
    rw [tenTo_succ]
    omega

/-- The power of a sum is the product of the powers. -/
theorem tenTo_add (m n : Nat) : tenTo (m + n) = tenTo m * tenTo n := by
  induction n with
  | zero => simp
  | succ n ih => rw [← Nat.add_assoc, tenTo_succ, tenTo_succ, ih, Nat.mul_assoc]

/-! ### Decimals -/

/-- Two to the power 96, which no mantissa reaches. -/
abbrev mantissaLimit : Nat := 79228162514264337593543950336

/-- The greatest number of places after the point at which a digit may differ from zero. -/
abbrev maxPlaces : Nat := 28

/-- A decimal number as it is written: `± mantissa · 10 ^ (-scale)`. -/
structure Decimal where
  /-- Whether a minus sign is written. -/
  negative : Bool
  /-- All digits of the number, read without the decimal point. -/
  mantissa : Nat
  /-- The number of digits after the decimal point. -/
  scale : Nat
  /-- The mantissa has at most 96 bits. -/
  mantissa_lt : mantissa < mantissaLimit := by decide
  /-- The digits behind the last place are zeros. -/
  dvd_mantissa : tenTo (scale - maxPlaces) ∣ mantissa := by decide
deriving DecidableEq

namespace Decimal

/-- The decimal with the given parts, if they are within the bounds. -/
def ofParts? (negative : Bool) (mantissa scale : Nat) : Option Decimal :=
  if h : mantissa < mantissaLimit ∧ tenTo (scale - maxPlaces) ∣ mantissa then
    some ⟨negative, mantissa, scale, h.1, h.2⟩
  else
    none

/-- The number zero, written `0`. -/
def zero : Decimal := ⟨false, 0, 0, by decide, by decide⟩

/-- The number one, written `1`. -/
def one : Decimal := ⟨false, 1, 0, by decide, by decide⟩

/-- The decimal of the given digits and places.  Digits that are out of bounds make a zero. -/
def ofDigits (mantissa scale : Nat) : Decimal :=
  (ofParts? false mantissa scale).getD zero

/-- A whole number, if it has at most 96 bits. -/
def ofNat? (n : Nat) : Option Decimal :=
  ofParts? false n 0

/-- The mantissa with its sign. -/
def signedMantissa (d : Decimal) : Int :=
  if d.negative then -(d.mantissa : Int) else (d.mantissa : Int)

/-- **Value.**  The rational number that a decimal denotes. -/
def toRat (d : Decimal) : Rat :=
  mkRat d.signedMantissa (tenTo d.scale)

/-- Whether the number is zero, whatever its sign and scale. -/
def isZero (d : Decimal) : Bool :=
  d.mantissa == 0

/-- Whether the number lies below zero. -/
def isNegative (d : Decimal) : Bool :=
  d.negative && !d.isZero

/-- The mantissa that a decimal would have at a scale of `d.scale + more`. -/
def mantissaAt (d : Decimal) (more : Nat) : Int :=
  d.signedMantissa * (tenTo more : Int)

/-- **Order of values.**  Both mantissas are taken to a common scale. -/
def compare (a b : Decimal) : Ordering :=
  let x := a.mantissaAt b.scale
  let y := b.mantissaAt a.scale
  if x < y then .lt else if x = y then .eq else .gt

/-- Whether one number lies below the other. -/
def below (a b : Decimal) : Bool :=
  a.compare b == .lt

/-- Whether two decimals denote one number. -/
def sameValue (a b : Decimal) : Bool :=
  a.compare b == .eq

/-- The sign is turned round, also that of a zero. -/
def negate (d : Decimal) : Decimal :=
  { d with negative := !d.negative }

/-- The sign is taken away. -/
def abs (d : Decimal) : Decimal :=
  { d with negative := false }

/-- Zeros at the end of the mantissa are dropped as long as they stand after the point. -/
def dropZeros : (mantissa scale : Nat) → Nat × Nat
  | mantissa, 0 => (mantissa, 0)
  | mantissa, scale + 1 =>
    if mantissa % 10 = 0 then dropZeros (mantissa / 10) scale else (mantissa, scale + 1)

/-- Dropping zeros makes neither the mantissa nor the scale larger. -/
theorem dropZeros_le (mantissa scale : Nat) :
    (dropZeros mantissa scale).1 ≤ mantissa ∧ (dropZeros mantissa scale).2 ≤ scale := by
  induction scale generalizing mantissa with
  | zero => simp [dropZeros]
  | succ scale ih =>
    simp only [dropZeros]
    split
    · have := ih (mantissa / 10)
      omega
    · simp

/-- Digits behind the last place that are zeros stay zeros when others are dropped. -/
theorem dvd_dropZeros {mantissa scale : Nat} (h : tenTo (scale - maxPlaces) ∣ mantissa) :
    tenTo ((dropZeros mantissa scale).2 - maxPlaces) ∣ (dropZeros mantissa scale).1 := by
  induction scale generalizing mantissa with
  | zero => simp [dropZeros]
  | succ scale ih =>
    simp only [dropZeros]
    split
    · apply ih
      by_cases behind : maxPlaces ≤ scale
      · obtain ⟨rest, rfl⟩ := h
        refine ⟨rest, ?_⟩
        rw [Nat.succ_sub behind, tenTo_succ, Nat.mul_right_comm, Nat.mul_div_cancel _ (by decide)]
      · rw [Nat.sub_eq_zero_of_le (Nat.le_of_not_le behind), tenTo_zero]
        exact Nat.one_dvd _
    · exact h

/-- **Shortest writing.**  The same number without zeros at its end; a zero loses its sign. -/
def normalize (d : Decimal) : Decimal :=
  if d.isZero then zero
  else
    ⟨d.negative, (dropZeros d.mantissa d.scale).1, (dropZeros d.mantissa d.scale).2,
      Nat.lt_of_le_of_lt (dropZeros_le _ _).1 d.mantissa_lt,
      dvd_dropZeros d.dvd_mantissa⟩

/-- Turning the sign round twice changes nothing. -/
@[simp]
theorem negate_negate (d : Decimal) : d.negate.negate = d := by
  simp [negate]

/-- Parts within the bounds make a decimal of just these parts. -/
theorem ofParts?_eq_some_iff {negative : Bool} {mantissa scale : Nat} {d : Decimal} :
    ofParts? negative mantissa scale = some d ↔
      d.negative = negative ∧ d.mantissa = mantissa ∧ d.scale = scale := by
  obtain ⟨n, m, s, hm, hs⟩ := d
  constructor
  · intro h
    simp only [ofParts?] at h
    split at h
    · simp only [Option.some.injEq, Decimal.mk.injEq] at h
      exact ⟨h.1.symm, h.2.1.symm, h.2.2.symm⟩
    · exact absurd h (by simp)
  · rintro ⟨rfl, rfl, rfl⟩
    exact dif_pos ⟨hm, hs⟩

end Decimal

end Tariff
