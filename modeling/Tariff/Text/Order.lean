/-!
# The order of texts

Texts are ordered character by character, each character by its code point; a text stands before
every longer text that begins with it.

## Main definitions

* `orderChars`, `order` — the order of two texts
* `equalIgnoringCase`, `upper` — case in the ASCII letters

## Main statements

* `orderChars_eq_iff` — texts of equal rank are the same text

## Design notes

The order of UTF-8 bytes is the same order, so no encoding has to be chosen here.
-/

namespace Tariff.Text

/-- The order of two lists of characters. -/
def orderChars : List Char → List Char → Ordering
  | [], [] => .eq
  | [], _ :: _ => .lt
  | _ :: _, [] => .gt
  | a :: as, b :: bs =>
    if a.toNat < b.toNat then .lt
    else if b.toNat < a.toNat then .gt
    else orderChars as bs

/-- The order of two texts. -/
def order (a b : String) : Ordering :=
  orderChars a.toList b.toList

/-- A text with its ASCII letters in upper case. -/
def upper (text : String) : String :=
  String.ofList (text.toList.map Char.toUpper)

/-- Whether two texts differ at most in the case of ASCII letters. -/
def equalIgnoringCase (a b : String) : Bool :=
  upper a == upper b

/-- Texts of equal rank are the same text. -/
theorem orderChars_eq_iff (a b : List Char) : orderChars a b = .eq ↔ a = b := by
  induction a generalizing b with
  | nil => cases b <;> simp [orderChars]
  | cons c as ih =>
    cases b with
    | nil => simp [orderChars]
    | cons d bs =>
      simp only [orderChars, List.cons.injEq]
      split
      · next h =>
        simp only [reduceCtorEq, false_iff, not_and]
        rintro rfl
        omega
      · split
        · next h =>
          simp only [reduceCtorEq, false_iff, not_and]
          rintro rfl
          omega
        · have : c = d := Char.toNat_inj.mp (by omega)
          simp [ih, this]

/-- Texts of equal rank are the same text. -/
theorem order_eq_iff (a b : String) : order a b = .eq ↔ a = b := by
  simp [order, orderChars_eq_iff, String.toList_inj]

end Tariff.Text
