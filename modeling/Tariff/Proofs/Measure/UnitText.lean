import Tariff.Measure.Catalogue
import Tariff.Proofs.Measure.NormalForm
import Tariff.Proofs.Text.Factors

/-!
# Reading the symbol of a unit

The symbol of a product is made of the symbols of its factors, and each of these stands in
the catalogue.  A unit that is built from standard units is therefore found again by its
symbol: at once if it is one of them, and by taking the symbol apart if it is a product.

## Main definitions

* `Factors.isWord` — characters at which no expression is taken apart

## Main statements

* `Factors.exists_of_side_words` — only a first power is written without raised digits
  and dots
* `MeasureUnit.heldProduct_of_distinct` — exponents in range are held as they are
* `Catalogue.find?_symbolOf` — no product is mistaken for an entry
* `Catalogue.splitFactor_factor`, `Catalogue.readSide_side`, `Catalogue.readTerms_chars` —
  the factors, sides and terms of a product read back
* `MeasureUnit.IsStandard.read_symbol` — standard units read back from their symbols

## Design notes

What is looked up in the catalogue as a whole is never taken apart.  A product is found by
its terms only because no entry has a character in it that stands between factors; and a
side of the line counts as empty only if it reads `1` or `one`, which no side with factors
does.
-/

namespace Tariff

open Factors Text

/-! ## Words -/

namespace Factors

variable {factors : List (String × ℤ)} {label : String} {e : ℤ} {c : Char}

/-- **Characters of words.**  Expressions are not taken apart at them. -/
def isWord (c : Char) : Bool :=
  !isBlank c && !separates c && !isLine c && c != '^' && !isSuperscript c

theorem isWord_iff : isWord c = true ↔ isBlank c = false ∧ separates c = false ∧
    isLine c = false ∧ c ≠ '^' ∧ isSuperscript c = false := by
  simp [isWord, and_assoc]

/-- **A side made of word characters** is a single factor without a written exponent. -/
theorem exists_of_side_words (ne : factors ≠ []) (words : ∀ c ∈ side factors, isWord c = true) :
    ∃ label e, factors = [(label, e)] ∧ exponentText e = [] := by
  obtain ⟨⟨label, e⟩, rest, rfl⟩ := List.exists_cons_of_ne_nil ne
  rcases eq_or_ne rest [] with rfl | more
  · refine ⟨label, e, rfl, List.eq_nil_iff_forall_not_mem.mpr ?_⟩
    intro c mem
    rw [side_singleton, factor_eq] at words
    have word := (isWord_iff.mp (words c (List.mem_append_right _ mem))).2.2.2.2
    rw [isSuperscript_of_mem_exponentText mem] at word
    cases word
  · rw [side_cons label e more] at words
    have dotWord : isWord dot = true :=
      words dot (List.mem_append_right _ List.mem_cons_self)
    cases dotWord

end Factors

namespace MeasureUnit

variable {terms : List (MeasureUnit × ℤ)}

/-- The symbols of terms, with their exponents. -/
def labels (terms : List (MeasureUnit × ℤ)) : List (String × ℤ) :=
  terms.map fun (unit, e) => (unit.symbol, e)

theorem above_labels (terms : List (MeasureUnit × ℤ)) :
    above (labels terms) = labels (above terms) := by
  rw [above, labels, List.filter_map]
  rfl

theorem below_labels (terms : List (MeasureUnit × ℤ)) :
    below (labels terms) = labels (below terms) := by
  rw [below, labels, List.filter_map]
  rfl

/-- **Exponents in range** are held as they are. -/
theorem held_of_range (range : ∀ unit e, (unit, e) ∈ terms → e ≠ 0 ∧ e.natAbs < 2 ^ 31) :
    held terms = terms := by
  have kept : (terms.map fun (unit, e) => (unit, e.bmod 4294967296)) = terms := by
    refine (List.map_congr_left ?_).trans (List.map_id _)
    rintro ⟨unit, e⟩ mem
    have small := (range unit e mem).2
    exact Prod.ext rfl (Int.bmod_eq_of_le (by omega) (by omega))
  rw [held, kept, List.filter_eq_self]
  exact fun term mem => decide_eq_true (range term.1 term.2 mem).1

/-- **A product of different units** with exponents in range is made in 32 bits as it is made
without a bound. -/
theorem heldProduct_of_distinct (flat : flatten terms = terms) (distinct : Distinct terms)
    (range : ∀ unit e, (unit, e) ∈ terms → e ≠ 0 ∧ e.natAbs < 2 ^ 31) :
    heldProduct terms = product terms := by
  rw [heldProduct, flat, held_of_range range, merge_of_distinct distinct, held_of_range range]

/-- Terms that are no products have nothing to be taken apart. -/
theorem flatten_of_single (h : ∀ unit e, (unit, e) ∈ terms →
    unit.isProduct = false ∧ unit.isOne = false ∧ e ≠ 0) : flatten terms = terms := by
  refine Eq.trans ?_ (List.flatMap_singleton' terms)
  refine List.flatMap_congr ?_
  rintro ⟨unit, e⟩ mem
  obtain ⟨single, effective, nonzero⟩ := h unit e mem
  dsimp only
  rw [if_neg nonzero, factors_of_not_isProduct single, effective]
  simp

end MeasureUnit

/-! ## Factors -/

namespace Catalogue

open MeasureUnit

variable {factors : List (String × ℤ)} {label : String} {e : ℤ}

/-- The raised digits at the end of a factor are its exponent. -/
theorem splitRaised_factor (words : ∀ c ∈ label.toList, isWord c = true) :
    splitRaised (factor label e) = (label.toList, exponentText e) := by
  have digits : ∀ c ∈ (exponentText e).reverse, isSuperscript c = true :=
    fun c mem => isSuperscript_of_mem_exponentText (List.mem_reverse.mp mem)
  have boundary : ∀ c ∈ label.toList.reverse.head?, isSuperscript c = false := fun c last =>
    (isWord_iff.mp (words c (List.mem_reverse.mp (List.mem_of_mem_head? last)))).2.2.2.2
  have raised : (factor label e).reverse.takeWhile isSuperscript = (exponentText e).reverse := by
    rw [factor_eq, List.reverse_append, takeWhile_append_eq digits boundary]
  rw [splitRaised, raised, List.length_reverse, List.reverse_reverse, factor_eq,
    List.reverse_append]
  simp

/-- **A factor is taken apart** into its label and its exponent, without the sign. -/
theorem splitFactor_factor (words : ∀ c ∈ label.toList, isWord c = true) (nonzero : e ≠ 0)
    (range : e.natAbs < 2 ^ 31) :
    splitFactor (factor label e) = .ok (label.toList, (e.natAbs : ℤ)) := by
  have caretless : ∀ c ∈ factor label e, (c == '^') = false := by
    refine forall_mem_factor ?_ fun c mem => ?_
    · rintro c digit
      by_contra caret
      obtain rfl : c = '^' := by simpa using caret
      cases digit
    · simpa using (isWord_iff.mp (words c mem)).2.2.2.1
  rw [splitFactor, cutAt_of_forall caretless]
  dsimp only
  rw [splitRaised_factor words]
  by_cases shown : isShown e = true
  · have raised : exponentText e = superscript e.natAbs := if_pos shown
    rw [raised]
    cases digits : superscript e.natAbs with
    | nil => exact absurd digits (superscript_ne_nil _)
    | cons c rest =>
        dsimp only
        rw [← digits, readSuperscript?_superscript range]
  · have plain : exponentText e = [] := if_neg shown
    have unit : e.natAbs = 1 := by
      rw [isShown_iff_of_range range] at shown
      omega
    rw [plain, factor_eq, plain, List.append_nil, unit]
    rfl

/-! ## Entries of the standard catalogue -/

variable {symbol : String} {unit : MeasureUnit} {terms : List (MeasureUnit × ℤ)}

/-- The catalogue is finite, so that each of its entries can be looked at. -/
theorem standard_entries : ∀ entry ∈ standard.entries,
    (entry.2.isOne = true → entry.2.symbol = "one") ∧
      (entry.1 = entry.2.symbol ∨ entry.1 = "1") ∧ entry.1 ≠ "" ∧
        entry.1.toList.all isWord = true := by
  decide +kernel

theorem find?_numeral : standard.find? "1" = some .one := by
  rw [standard, find?_enter, if_pos rfl]

theorem find?_one : standard.find? "one" = some .one := rfl

/-- **A unit is entered under its own symbol.** -/
theorem find?_symbol (h : ∃ symbol, standard.find? symbol = some unit) :
    standard.find? unit.symbol = some unit := by
  obtain ⟨symbol, h⟩ := h
  obtain ⟨-, own, -⟩ := standard_entries _ (mem_entries_of_find? h)
  rcases own with own | rfl
  · exact own ▸ h
  · obtain rfl := Option.some.inj (find?_numeral.symm.trans h)
    exact find?_one

/-- What counts as the unit of plain numbers is that unit. -/
theorem eq_one_of_find? (h : ∃ symbol, standard.find? symbol = some unit)
    (plain : unit.isOne = true) : unit = .one := by
  have found := find?_symbol h
  have symbol := (standard_entries _ (mem_entries_of_find? found)).1
  rw [symbol plain] at found
  exact Option.some.inj (found.symm.trans find?_one)

theorem isWord_of_find? (h : standard.find? symbol = some unit) :
    ∀ c ∈ symbol.toList, isWord c = true :=
  List.all_eq_true.mp (standard_entries _ (mem_entries_of_find? h)).2.2.2

/-- A symbol that is entered has no blanks and is not empty. -/
theorem solid_of_find? (h : standard.find? symbol = some unit) :
    (∀ c ∈ symbol.toList, isBlank c = false) ∧ symbol.toList ≠ [] := by
  refine ⟨fun c char => (isWord_iff.mp (isWord_of_find? h c char)).1, ?_⟩
  rw [ne_eq, String.toList_eq_nil_iff]
  exact (standard_entries _ (mem_entries_of_find? h)).2.2.1

/-- It denotes its unit. -/
theorem read_of_find? (h : standard.find? symbol = some unit) :
    standard.read symbol = .ok unit := by
  rw [read, readChars, trim_of_forall (solid_of_find? h).1, String.ofList_toList, h]

/-! ## Sides -/

section Parts

variable (parts : ∀ unit e, (unit, e) ∈ terms →
  (∃ symbol, standard.find? symbol = some unit) ∧ unit.isOne = false)

include parts

/-- The symbols of terms are words. -/
theorem isWord_of_mem_labels : ∀ label e, (label, e) ∈ labels terms →
    ∀ c ∈ label.toList, isWord c = true := by
  intro label e mem
  obtain ⟨⟨unit, f⟩, term, eq⟩ := List.mem_map.mp mem
  obtain ⟨rfl, -⟩ := Prod.mk.inj eq
  exact isWord_of_find? (find?_symbol (parts unit f term).1)

/-- **Where terms are written without separators**, there is only one of them. -/
theorem exists_of_side_labels (ne : terms ≠ [])
    (words : ∀ c ∈ side (labels terms), isWord c = true) : ∃ unit e,
      terms = [(unit, e)] ∧ isShown e = false ∧ side (labels terms) = unit.symbol.toList := by
  obtain ⟨label, e, single, plain⟩ :=
    exists_of_side_words (by simpa [labels] using ne) words
  obtain ⟨⟨unit, f⟩, rfl, eq⟩ := List.map_eq_singleton_iff.mp single
  obtain ⟨rfl, rfl⟩ := Prod.mk.inj eq
  refine ⟨unit, f, rfl, ?_, ?_⟩
  · by_contra shown
    rw [exponentText, if_pos (Bool.eq_true_of_not_eq_false shown)] at plain
    exact superscript_ne_nil _ plain
  · rw [single, side_singleton, factor_eq, plain, List.append_nil]

/-- Some terms are not written as nothing. -/
theorem side_labels_ne_nil (ne : terms ≠ []) : side (labels terms) ≠ [] := by
  intro empty
  obtain ⟨unit, e, rfl, -, written⟩ :=
    exists_of_side_labels parts ne (by simp [empty])
  have found := find?_symbol (parts unit e List.mem_cons_self).1
  exact (solid_of_find? found).2 (written.symm.trans empty)

/-- They have neither blanks nor slashes in them. -/
theorem plain_of_mem_labels : ∀ label e, (label, e) ∈ labels terms →
    ∀ c ∈ label.toList, isBlank c = false ∧ isLine c = false := by
  intro label e mem c char
  have word := isWord_iff.mp (isWord_of_mem_labels parts label e mem c char)
  exact ⟨word.1, word.2.2.1⟩

theorem trim_side_labels : trim (side (labels terms)) = side (labels terms) :=
  trim_side fun label e mem c char => (plain_of_mem_labels parts label e mem c char).1

/-- Terms are not written like no terms. -/
theorem isUnitySide_side (ne : terms ≠ []) : isUnitySide (side (labels terms)) = false := by
  by_contra unity
  have unity : side (labels terms) = "1".toList ∨ side (labels terms) = "one".toList := by
    rw [Bool.not_eq_false, isUnitySide, Bool.or_eq_true, beq_iff_eq, beq_iff_eq] at unity
    exact unity
  have words : ∀ c ∈ side (labels terms), isWord c = true := by
    rcases unity with eq | eq <;> rw [eq] <;> exact List.all_eq_true.mp (by decide)
  obtain ⟨unit, e, rfl, -, written⟩ := exists_of_side_labels parts ne words
  obtain ⟨known, effective⟩ := parts unit e List.mem_cons_self
  have found := find?_symbol known
  have plain : unit = .one := by
    rw [written, String.toList_inj, String.toList_inj] at unity
    rcases unity with eq | eq
    · rw [eq] at found
      exact Option.some.inj (found.symm.trans find?_numeral)
    · rw [eq] at found
      exact Option.some.inj (found.symm.trans find?_one)
  rw [plain] at effective
  cases effective

variable (range : ∀ unit e, (unit, e) ∈ terms → e ≠ 0 ∧ e.natAbs < 2 ^ 31)

include range

/-- **The terms on one side of the line read back**, without the signs of their exponents. -/
theorem readSide_side (ne : terms ≠ []) : standard.readSide (side (labels terms)) =
    .ok (terms.map fun (unit, e) => (unit, (e.natAbs : ℤ))) := by
  have words := isWord_of_mem_labels parts
  rw [readSide, trim_side_labels parts, isUnitySide_side parts ne, if_neg Bool.false_ne_true]
  refine mapM_pieces_side ne ?_ ?_
  · rintro ⟨unit, e⟩ mem c char
    obtain ⟨solid, whole, -⟩ :=
      isWord_iff.mp (words unit.symbol e (List.mem_map_of_mem mem) c char)
    exact ⟨solid, whole⟩
  · rintro ⟨unit, e⟩ mem
    obtain ⟨nonzero, small⟩ := range unit e mem
    dsimp only
    rw [readFactor,
      splitFactor_factor (words unit.symbol e (List.mem_map_of_mem mem)) nonzero small]
    change (standard.lookup (String.ofList unit.symbol.toList) >>= fun unit => _) = _
    rw [lookup, String.ofList_toList, find?_symbol (parts unit e mem).1]
    rfl

/-- **The terms above the line** read back. -/
theorem readSide_aboveText : standard.readSide (aboveText (labels terms)) = .ok (above terms) := by
  rw [aboveText, above_labels]
  split
  · next empty =>
      rw [labels, List.isEmpty_iff, List.map_eq_nil_iff] at empty
      rw [empty]
      rfl
  · next some =>
      have ne : above terms ≠ [] := by simpa [labels] using some
      rw [readSide_side (fun unit e mem => parts unit e (mem_above_iff.mp mem).1)
        (fun unit e mem => range unit e (mem_above_iff.mp mem).1) ne,
        map_above fun e positive => Int.natAbs_of_nonneg positive.le]

/-- **The terms of a product read back**, those above the line first. -/
theorem readTerms_chars :
    standard.readTerms (chars (labels terms)) = .ok (above terms ++ below terms) := by
  have free : ∀ label e, (label, e) ∈ above (labels terms) →
      ∀ c ∈ label.toList, isLine c = false := fun label e mem c char =>
    (plain_of_mem_labels parts label e (mem_above_iff.mp mem).1 c char).2
  rw [readTerms, cutAt_chars free, below_labels]
  rcases eq_or_ne (below terms) [] with empty | ne
  · rw [empty, List.append_nil]
    exact readSide_aboveText parts range
  · have parts' : ∀ unit e, (unit, e) ∈ below terms →
        (∃ symbol, standard.find? symbol = some unit) ∧ unit.isOne = false :=
      fun unit e mem => parts unit e (mem_below_iff.mp mem).1
    have negative : standard.readSide (side (labels (below terms))) =
        .ok ((below terms).map fun (unit, e) => (unit, (e.natAbs : ℤ))) :=
      readSide_side parts' (fun unit e mem => range unit e (mem_below_iff.mp mem).1) ne
    have slashless : ∀ c ∈ side (labels (below terms)), isLine c = false :=
      forall_mem_side (by decide) (fun _ digit => (plain_of_isSuperscript digit).2.2)
        fun label e mem c char => (plain_of_mem_labels parts' label e mem c char).2
    have guarded : ((trim (side (labels (below terms)))).isEmpty ||
        (side (labels (below terms))).any isLine) = false := by
      rw [trim_side_labels parts', Bool.or_eq_false_iff, List.isEmpty_eq_false_iff,
        List.any_eq_false]
      refine ⟨side_labels_ne_nil parts' ne, fun c char => ?_⟩
      rw [slashless c char]
      exact Bool.false_ne_true
    have signed : (below terms).map (fun (unit, e) => (unit, -(e.natAbs : ℤ))) = below terms := by
      have sign : ∀ e : ℤ, e < 0 → -(e.natAbs : ℤ) = e := by omega
      exact map_below sign
    rw [if_neg (by simpa [labels] using ne)]
    dsimp only
    rw [readSide_aboveText parts range, negative, guarded]
    change Except.ok (above terms ++ List.map _ (List.map _ _)) = _
    rw [List.map_map]
    exact congrArg (fun terms' => Except.ok (above terms ++ terms')) signed

end Parts

/-- **No product is mistaken for an entry.** -/
theorem find?_symbolOf (parts : ∀ unit e, (unit, e) ∈ terms →
      (∃ symbol, standard.find? symbol = some unit) ∧ unit.isOne = false)
    (made : (ofTerms terms).isProduct = true) (normal : above terms ++ below terms = terms) :
    standard.find? (symbolOf terms) = none := by
  by_contra entered
  obtain ⟨unit, found⟩ := Option.ne_none_iff_exists'.mp entered
  have words : ∀ c ∈ chars (labels terms), isWord c = true := by
    have words := isWord_of_find? found
    rwa [symbolOf, Factors.text, String.toList_ofList] at words
  rw [chars_eq, below_labels, aboveText, above_labels] at words
  -- a line would be no word
  have empty : below terms = [] := by
    by_contra ne
    rw [if_neg (c := (labels (below terms)).isEmpty = true) (by simpa [labels] using ne)] at words
    have line := words '/' (List.mem_append_right _ List.mem_cons_self)
    cases line
  rw [empty, List.append_nil] at normal
  rw [normal] at words
  have ne : terms ≠ [] := by
    rintro rfl
    cases made
  rw [if_neg (by simpa [labels] using ne)] at words
  obtain ⟨unit, e, rfl, hidden, -⟩ :=
    exists_of_side_labels parts ne fun c char => words c (List.mem_append_left _ char)
  -- nor is there a single term without an exponent
  have positive : 0 < e := (mem_above_iff.mp (normal ▸ List.mem_cons_self : (unit, e) ∈ above _)).2
  obtain rfl : e = 1 := by
    have least : e ≠ leastExponent := by
      rw [leastExponent]
      omega
    have small : ¬ 1 < e.natAbs := fun large => by simp [isShown_iff.mpr ⟨large, least⟩] at hidden
    omega
  have single : unit.isProduct = false := isProduct_of_find? (parts unit 1 List.mem_cons_self).1
  rw [ofTerms, single] at made
  cases made

/-- The symbol of a product has no blanks and is not empty. -/
theorem solid_symbolOf (parts : ∀ unit e, (unit, e) ∈ terms →
    (∃ symbol, standard.find? symbol = some unit) ∧ unit.isOne = false) :
    (∀ c ∈ (symbolOf terms).toList, isBlank c = false) ∧ (symbolOf terms).toList ≠ [] := by
  rw [symbolOf, Factors.text, String.toList_ofList]
  change (∀ c ∈ chars (labels terms), _) ∧ chars (labels terms) ≠ []
  constructor
  · refine isBlank_of_mem_chars fun label e mem c char => ?_
    exact (plain_of_mem_labels parts label e mem c char).1
  · rw [chars_eq, aboveText, above_labels]
    split
    · exact List.cons_ne_nil _ _
    · next some =>
        have ne : above terms ≠ [] := by simpa [labels] using some
        have parts := fun unit e mem => parts unit e (mem_above_iff.mp mem).1
        exact List.append_ne_nil_of_left_ne_nil (side_labels_ne_nil parts ne) _

/-- **A product is found by its terms.** -/
theorem read_symbolOf (parts : ∀ unit e, (unit, e) ∈ terms →
      (∃ symbol, standard.find? symbol = some unit) ∧ unit.isOne = false)
    (range : ∀ unit e, (unit, e) ∈ terms → e ≠ 0 ∧ e.natAbs < 2 ^ 31)
    (made : (ofTerms terms).isProduct = true) (normal : above terms ++ below terms = terms) :
    standard.read (symbolOf terms) = .ok (heldProduct terms) := by
  obtain ⟨solid, written⟩ := solid_symbolOf parts
  rw [read, readChars, trim_of_forall solid, String.ofList_toList, find?_symbolOf parts made normal,
    List.isEmpty_eq_false_iff.mpr written, symbolOf, Factors.text, String.toList_ofList]
  change heldProduct <$> standard.readTerms (chars (labels terms)) = _
  rw [readTerms_chars parts range, normal]
  rfl

end Catalogue

namespace MeasureUnit

variable {unit : MeasureUnit} {terms : List (MeasureUnit × ℤ)}

namespace IsStandard

/-- What counts as the unit of plain numbers is that unit. -/
theorem eq_one (standard : unit.IsStandard) (plain : unit.isOne = true) : unit = one := by
  cases standard.hasForm with
  | given entered => exact Catalogue.eq_one_of_find? entered plain
  | one => rfl
  | product made _ _ =>
      rw [made] at plain
      cases plain

/-- The symbol of a standard unit has no blanks and is not empty. -/
theorem solid_symbol (standard : unit.IsStandard) :
    (∀ c ∈ unit.symbol.toList, isBlank c = false) ∧ unit.symbol.toList ≠ [] := by
  cases standard.hasForm with
  | given entered => exact Catalogue.solid_of_find? (Catalogue.find?_symbol entered)
  | one => exact Catalogue.solid_of_find? Catalogue.find?_one
  | product made _ parts =>
      rw [made]
      exact Catalogue.solid_symbolOf parts

/-- **Standard units read back** from their symbols. -/
theorem read_symbol (standard : unit.IsStandard)
    (range : ∀ factor e, (factor, e) ∈ unit.factors → e.natAbs < 2 ^ 31) :
    Catalogue.standard.read unit.symbol = .ok unit := by
  cases standard.hasForm with
  | given entered => exact Catalogue.read_of_find? (Catalogue.find?_symbol entered)
  | one => exact Catalogue.read_of_find? Catalogue.find?_one
  | @product terms made normal parts =>
      have arranged : above terms ++ below terms = terms := by
        rw [← normal]
        exact arrange_arrange _
      have nonzero : ∀ unit e, (unit, e) ∈ terms → e ≠ 0 := by
        intro unit e mem
        rw [← arranged, List.mem_append] at mem
        rcases mem with mem | mem
        · exact (mem_above_iff.mp mem).2.ne'
        · exact (mem_below_iff.mp mem).2.ne
      have flat : flatten terms = terms := flatten_of_single fun unit e mem =>
        ⟨isProduct_of_find? (parts unit e mem).1, (parts unit e mem).2, nonzero unit e mem⟩
      rw [made, factors_derived] at range
      have whole : heldProduct terms = ofTerms terms := by
        rw [heldProduct_of_distinct flat (normal ▸ (distinct_merge terms).arrange)
          fun unit e mem => ⟨nonzero unit e mem, range unit e mem⟩, product, flat, normal]
      have symbol : (ofTerms terms).symbol = symbolOf terms := by rw [made, MeasureUnit.symbol]
      rw [symbol, Catalogue.read_symbolOf parts
        (fun unit e mem => ⟨nonzero unit e mem, range unit e mem⟩) (by rw [made]; rfl) arranged,
        whole]

end IsStandard

end MeasureUnit

end Tariff
