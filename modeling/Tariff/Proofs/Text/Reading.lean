import Mathlib.Data.List.Basic
import Mathlib.Tactic.IntervalCases
import Tariff.Text.Cut
import Tariff.Text.Numeral

/-!
# Reading what was written

A writer puts separators between its parts and raises the digits of its exponents.  A
reader finds the parts again as long as none of them has a separator in it, and the
exponents as long as they are in range.

## Main statements

* `Text.trim_eq_self` — a text with no blank at its ends
* `Text.cutAt_append`, `Text.pieces_append` — a text with a separator in it
* `Text.readSuperscript?_superscript` — raised digits read back as their number
-/

namespace Tariff.Text

variable {separates : Char → Bool} {text front back : List Char} {c : Char}

/-! ## Blanks -/

theorem trimStart_cons (h : isBlank c = false) : trimStart (c :: text) = c :: text := by
  rw [trimStart, List.dropWhile_cons, if_neg (by rw [h]; decide)]

/-- **A text with no blank at its ends** is not trimmed. -/
theorem trim_eq_self (first : ∀ c ∈ text.head?, isBlank c = false)
    (last : ∀ c ∈ text.getLast?, isBlank c = false) : trim text = text := by
  have start : trimStart text = text := by
    cases text with
    | nil => rfl
    | cons c rest => exact trimStart_cons (first c rfl)
  have reversed : trimStart text.reverse = text.reverse := by
    rw [← List.head?_reverse] at last
    cases backwards : text.reverse with
    | nil => rfl
    | cons c rest =>
        rw [backwards] at last
        exact trimStart_cons (last c rfl)
  rw [trim, start, trimEnd, ← trimStart, reversed, List.reverse_reverse]

/-- Nor is a text with no blank at all. -/
theorem trim_of_forall (h : ∀ c ∈ text, isBlank c = false) : trim text = text :=
  trim_eq_self (fun c first => h c (List.mem_of_mem_head? first))
    fun c last => h c (List.mem_of_getLast? last)

/-! ## Runs -/

/-- **A run of characters** is read up to the first character that is not of its kind. -/
theorem takeWhile_append_eq {kind : Char → Bool} (inside : ∀ c ∈ front, kind c = true)
    (boundary : ∀ c ∈ back.head?, kind c = false) : (front ++ back).takeWhile kind = front := by
  rw [List.takeWhile_append_of_pos inside]
  cases back with
  | nil => rw [List.takeWhile_nil, List.append_nil]
  | cons c rest => rw [List.takeWhile_cons_of_neg (by simp [boundary c rfl]), List.append_nil]

theorem dropWhile_append_eq {kind : Char → Bool} (inside : ∀ c ∈ front, kind c = true)
    (boundary : ∀ c ∈ back.head?, kind c = false) : (front ++ back).dropWhile kind = back := by
  rw [List.dropWhile_append_of_pos inside]
  cases back with
  | nil => rfl
  | cons c rest => rw [List.dropWhile_cons_of_neg (by simp [boundary c rfl])]

/-! ## Separators -/

theorem cutAt_of_forall (h : ∀ c ∈ text, separates c = false) :
    cutAt separates text = (text, none) := by
  induction text with
  | nil => rfl
  | cons c rest ih =>
      obtain ⟨first, others⟩ := List.forall_mem_cons.mp h
      rw [cutAt, if_neg (by rw [first]; decide), ih others]

/-- **A text is cut at its first separator.** -/
theorem cutAt_append (h : ∀ c ∈ front, separates c = false) (cut : separates c = true) :
    cutAt separates (front ++ c :: back) = (front, some back) := by
  induction front with
  | nil => rw [List.nil_append, cutAt, if_pos cut]
  | cons d rest ih =>
      obtain ⟨first, others⟩ := List.forall_mem_cons.mp h
      rw [List.cons_append, cutAt, if_neg (by rw [first]; decide), ih others]

/-- What a text is cut into makes up the text. -/
theorem eq_of_cutAt (h : cutAt separates text = (front, none)) : text = front := by
  have whole := (cutAt_eq_none_iff separates text).mp (congrArg Prod.snd h)
  rw [cutAt_of_forall whole] at h
  exact congrArg Prod.fst h

theorem eq_append_of_cutAt (h : cutAt separates text = (front, some back)) :
    ∃ c, separates c = true ∧ text = front ++ c :: back := by
  induction text generalizing front with
  | nil => cases h
  | cons c rest ih =>
      rw [cutAt] at h
      split at h
      · next cut =>
          cases h
          exact ⟨c, cut, rfl⟩
      · cases behind : cutAt separates rest with
        | mk before after =>
            rw [behind] at h
            cases h
            obtain ⟨d, cut, rfl⟩ := ih behind
            exact ⟨d, cut, rfl⟩

theorem pieces_of_forall (h : ∀ c ∈ text, separates c = false) :
    pieces separates text = [text] := by
  induction text with
  | nil => rfl
  | cons c rest ih =>
      obtain ⟨first, others⟩ := List.forall_mem_cons.mp h
      rw [pieces, if_neg (by rw [first]; decide), ih others]

/-- **The pieces before a separator and behind it** are those of the whole text. -/
theorem pieces_append (cut : separates c = true) :
    pieces separates (front ++ c :: back) = pieces separates front ++ pieces separates back := by
  induction front with
  | nil => simp only [List.nil_append, pieces, cut, if_true, List.singleton_append]
  | cons d rest ih =>
      rw [List.cons_append, pieces, pieces, ih]
      split
      · rfl
      · cases others : pieces separates rest with
        | nil => exact absurd others (pieces_ne_nil separates rest)
        | cons piece others => rfl

/-! ## Digits -/

/-- A digit is one of ten characters. -/
theorem mem_of_isDigit (h : isDigit c = true) :
    c ∈ ['0', '1', '2', '3', '4', '5', '6', '7', '8', '9'] := by
  simp only [isDigit, Bool.and_eq_true, decide_eq_true_eq, Char.le_def] at h
  have range : 48 ≤ c.toNat ∧ c.toNat ≤ 57 := h
  rw [← Char.ofNat_toNat c]
  generalize c.toNat = n at range
  obtain ⟨lower, upper⟩ := range
  interval_cases n <;> decide

/-- **What holds of the ten** holds of every digit. -/
theorem of_isDigit {p : Char → Prop} [DecidablePred p]
    (ten : ['0', '1', '2', '3', '4', '5', '6', '7', '8', '9'].all p = true)
    (h : isDigit c = true) : p c :=
  of_decide_eq_true (List.all_eq_true.mp ten c (mem_of_isDigit h))

/-- A digit is neither blank nor a sign. -/
theorem solid_of_isDigit (h : isDigit c = true) : isBlank c = false ∧ c ≠ '-' ∧ c ≠ '+' :=
  of_isDigit (p := fun c => isBlank c = false ∧ c ≠ '-' ∧ c ≠ '+') (by decide) h

/-- A raised digit is one of ten characters, too. -/
theorem mem_of_isSuperscript (h : isSuperscript c = true) :
    c ∈ ['⁰', '¹', '²', '³', '⁴', '⁵', '⁶', '⁷', '⁸', '⁹'] := by
  unfold isSuperscript lower? at h
  split at h <;> simp_all

/-- A raised digit is lowered again. -/
theorem lower?_raise (h : isDigit c = true) : lower? (raise c) = some c :=
  of_isDigit (p := fun c => lower? (raise c) = some c) (by decide) h

theorem isDigit_of_mem_digits {n : ℕ} (h : c ∈ digits n) : isDigit c = true :=
  List.all_eq_true.mp (all_isDigit_digits n) c h

theorem isSuperscript_of_mem_superscript {n : ℕ} (h : c ∈ superscript n) :
    isSuperscript c = true := by
  obtain ⟨d, mem, rfl⟩ := List.mem_map.mp h
  rw [isSuperscript, lower?_raise (isDigit_of_mem_digits mem), Option.isSome_some]

/-- A raised run of digits is lowered again. -/
theorem mapM_lower?_raise {run : List Char} (h : ∀ c ∈ run, isDigit c = true) :
    (run.map raise).mapM lower? = some run := by
  induction run with
  | nil => rfl
  | cons c rest ih =>
      obtain ⟨first, others⟩ := List.forall_mem_cons.mp h
      rw [List.map_cons, List.mapM_cons, lower?_raise first, ih others]
      rfl

theorem superscript_ne_nil (n : ℕ) : superscript n ≠ [] := by
  rw [superscript, ne_eq, List.map_eq_nil_iff]
  exact digits_ne_nil n

/-- Digits have no sign in front of them. -/
theorem readSigned?_digits (n : ℕ) : readSigned? (digits n) = some (n : ℤ) := by
  have read := readNat?_digits n
  cases run : digits n with
  | nil => exact absurd run (digits_ne_nil n)
  | cons c rest =>
      obtain ⟨-, minus, plus⟩ :=
        solid_of_isDigit (isDigit_of_mem_digits (n := n) (run ▸ List.mem_cons_self))
      rw [run] at read
      simp [readSigned?, dropPlus, minus, plus, read]

/-- **Raised digits read back** as their number, if it is in range. -/
theorem readSuperscript?_superscript {n : ℕ} (small : n < 2 ^ 31) :
    readSuperscript? (superscript n) = some (n : ℤ) := by
  have lowered : (superscript n).mapM lower? = some (digits n) :=
    mapM_lower?_raise fun c => isDigit_of_mem_digits
  have range : exponentRange n = true := by
    rw [exponentRange, Bool.and_eq_true, decide_eq_true_eq, decide_eq_true_eq]
    omega
  rw [readSuperscript?, lowered, Option.bind_some, readExponent?, readSigned?_digits,
    Option.filter_some, if_pos range]

end Tariff.Text
