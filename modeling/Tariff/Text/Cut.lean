/-!
# Blanks and separators

Trimming the blanks off the ends of a text, and cutting it at separators.

## Main definitions

* `isBlank` — the characters of the Unicode property `White_Space`
* `trim` — a text without the blanks at its two ends
* `cutAt` — a text before and after its first separator
* `pieces` — the parts of a text between all of its separators

## Main statements

* `cutAt_eq_none_iff` — a text is left whole exactly when it holds no separator
* `pieces_ne_nil` — there is always at least one piece

## Design notes

Readers in this library work on `List Char`; a `String` is taken apart once, at the public entry
of a reader.  `trim` is therefore a function on lists, built from `List.dropWhile`.

A separator is a test on characters, so that several characters may separate.  The pieces may be
empty: nothing is dropped but the separators themselves.
-/

namespace Tariff.Text

/-! ### Blanks -/

/-- The twenty-five characters of the Unicode property `White_Space`. -/
def isBlank (c : Char) : Bool :=
  let n := c.toNat
  (0x09 ≤ n && n ≤ 0x0D) || n == 0x20 || n == 0x85 || n == 0xA0 || n == 0x1680 ||
    (0x2000 ≤ n && n ≤ 0x200A) || n == 0x2028 || n == 0x2029 || n == 0x202F || n == 0x205F ||
    n == 0x3000

/-- The text from its first character that is not blank. -/
def trimStart (text : List Char) : List Char :=
  text.dropWhile isBlank

/-- The text up to its last character that is not blank. -/
def trimEnd (text : List Char) : List Char :=
  (text.reverse.dropWhile isBlank).reverse

/-- The text without the blanks at its two ends. -/
def trim (text : List Char) : List Char :=
  trimEnd (trimStart text)

/-- The empty text stays empty. -/
@[simp]
theorem trim_nil : trim [] = [] := rfl

/-- Trimming keeps blanks that stand between other characters. -/
example : trim [' ', 'a', '\t', 'b', '\n'] = ['a', '\t', 'b'] := by decide

/-- The no-break space is blank, the zero-width space is not. -/
example : isBlank '\u00a0' = true ∧ isBlank '\u200b' = false := by decide

/-! ### Separators -/

/-- **First cut.**  The characters before the first separator, and what follows it if there is a
separator at all. -/
def cutAt (separates : Char → Bool) : List Char → List Char × Option (List Char)
  | [] => ([], none)
  | c :: rest =>
    if separates c then ([], some rest)
    else
      let (before, after) := cutAt separates rest
      (c :: before, after)

/-- **All cuts.**  The pieces of a text between its separators, from left to right. -/
def pieces (separates : Char → Bool) : List Char → List (List Char)
  | [] => [[]]
  | c :: rest =>
    if separates c then [] :: pieces separates rest
    else
      match pieces separates rest with
      | [] => [[c]]
      | piece :: others => (c :: piece) :: others

/-- A text is left whole exactly when no character of it separates. -/
theorem cutAt_eq_none_iff (separates : Char → Bool) (text : List Char) :
    (cutAt separates text).2 = none ↔ ∀ c ∈ text, separates c = false := by
  induction text with
  | nil => simp [cutAt]
  | cons c rest ih =>
    cases h : separates c
    · simp [cutAt, h, ih]
    · simp [cutAt, h]

/-- Even the empty text has a piece. -/
theorem pieces_ne_nil (separates : Char → Bool) (text : List Char) :
    pieces separates text ≠ [] := by
  cases text with
  | nil => simp [pieces]
  | cons c rest =>
    simp only [pieces]
    split
    · simp
    · split <;> simp

example : cutAt (· == '/') ['a', '/', 'b', '/'] = (['a'], some ['b', '/']) := by decide

example : pieces (· == '/') ['a', '/', '/'] = [['a'], [], []] := by decide

end Tariff.Text
