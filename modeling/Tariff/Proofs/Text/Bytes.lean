import Mathlib.Data.List.Lex
import Tariff.Proofs.Measure.Powers

/-!
# The order of texts and of their bytes

Texts are ordered by the code points of their characters.  Written down in UTF-8 they are
sequences of bytes, and these are ordered in the same way.

## Main definitions

* `Text.bytes` — the bytes of a text in UTF-8

## Main statements

* `Text.utf8EncodeChar_append_lt` — a character with the lesser code point has the lesser bytes,
  whatever follows
* `Text.order_eq_lt_iff_bytes` — the order of texts is that of their bytes

## Design notes

The encodings of two characters are told apart by a byte that both have, so that it does not matter
what stands behind them.  Where they are of different lengths it is the first byte; where they are
of equal length, their bytes are the digits of the code points to the base 64.
-/

namespace Tariff.Text

open String

variable {c d : Char}

/-- **The bytes** of a text in UTF-8. -/
def bytes (text : String) : List UInt8 :=
  text.toUTF8.data.toList

/-- They are those of its characters, one after the other. -/
theorem bytes_eq (text : String) : bytes text = text.toList.flatMap utf8EncodeChar := by
  have encoded : text.toUTF8 = text.toList.utf8Encode := by
    conv_lhs => rw [← String.ofList_toList (s := text)]
    rfl
  rw [bytes, encoded, List.utf8Encode, List.data_toByteArray]

/-- **A lesser code point has lesser bytes**, whatever follows. -/
theorem utf8EncodeChar_append_lt (h : c.toNat < d.toNat) (xs ys : List UInt8) :
    utf8EncodeChar c ++ xs < utf8EncodeChar d ++ ys := by
  have range : d.val.toNat < 0x110000 := by
    rcases d.valid with low | high
    · exact low.trans (by decide)
    · exact high.2
  have h : c.val.toNat < d.val.toNat := h
  -- the digits of a code point are those of its quotient by 64, with one more behind
  have twice (n : ℕ) : n / 4096 = n / 64 / 64 := (Nat.div_div_eq_div_mul n 64 64).symm
  have thrice (n : ℕ) : n / 262144 = n / 64 / 64 / 64 := by
    rw [← twice, Nat.div_div_eq_div_mul]
  fun_cases utf8EncodeChar c <;> fun_cases utf8EncodeChar d <;>
    simp only [List.cons_append, List.nil_append, List.cons_lt_cons_iff, UInt8.lt_iff_toNat_lt,
      ← UInt8.toNat_inj, UInt8.toNat_ofNat', twice, thrice] <;> omega

/-- A text that comes first has the lesser bytes. -/
theorem flatMap_utf8EncodeChar_lt {a b : List Char} (h : orderChars a b = .lt) :
    a.flatMap utf8EncodeChar < b.flatMap utf8EncodeChar := by
  induction a generalizing b with
  | nil =>
      cases b with
      | nil => cases h
      | cons d bs =>
          obtain ⟨byte, more, eq⟩ := List.exists_cons_of_ne_nil (utf8EncodeChar_ne_nil (c := d))
          rw [List.flatMap_cons, eq]
          exact List.nil_lt_cons _ _
  | cons c as ih =>
      cases b with
      | nil => cases h
      | cons d bs =>
          rw [orderChars] at h
          rw [List.flatMap_cons, List.flatMap_cons]
          split at h
          · next less => exact utf8EncodeChar_append_lt less _ _
          · next notLess =>
              split at h
              · cases h
              · next notGreater =>
                  obtain rfl : c = d :=
                    Char.toNat_inj.mp (le_antisymm (not_lt.mp notGreater) (not_lt.mp notLess))
                  exact List.append_left_lt (ih h)

/-- **The order of texts is that of their bytes.** -/
theorem order_eq_lt_iff_bytes (a b : String) : order a b = .lt ↔ bytes a < bytes b := by
  have forward {a b : String} (h : order a b = .lt) : bytes a < bytes b := by
    rw [bytes_eq, bytes_eq]
    exact flatMap_utf8EncodeChar_lt h
  refine ⟨forward, fun less => ?_⟩
  cases placed : order a b with
  | lt => rfl
  | eq =>
      obtain rfl := (order_eq_iff a b).mp placed
      exact absurd less (List.lt_irrefl _)
  | gt => exact absurd less (List.lt_asymm (forward ((order_eq_gt_iff a b).mp placed)))

end Tariff.Text
