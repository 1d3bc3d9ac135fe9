import Tariff.Measure.Dimension.Notation
import Tariff.Proofs.Measure.Powers
import Tariff.Proofs.Text.Factors

/-!
# Reading the text of a dimension

The symbol of a base is any character in square brackets, and it may be one that parts
the factors of a product.  Where it is, the text of a dimension is not read back.  The
theorem of this module says where exactly that happens.

## Main definitions

* `Dimension.IsMade` — dimensions made from bases by the algebra

## Main statements

* `Dimension.readChars_chars` — how a written product is read
* `Dimension.readSide_side` — the factors on one side of the line read back
* `Dimension.exists_readFactor` — where a side is read, each of its pieces is a factor
* `Dimension.read_text_iff` — which dimensions read back

## Design notes

A text is cut at its first slash, what is left on each side at its dots and stars, and a
symbol ends at its first bracket.  A character in brackets that comes too early for its
reader therefore leaves a piece `[` or a symbol `[]`, and neither is a base.  Below the
line the slash comes late enough.
-/

namespace Tariff

open Factors Text

namespace Dimension

variable {d : Dimension} {factors powers : Powers} {symbol : String} {e : ℤ} {c : Char}

/-! ## Dimensions in normal form -/

/-- **Dimensions made from bases** by the algebra. -/
inductive IsMade : Dimension → Prop
  | base {symbol : String} {d : Dimension} (h : readBase symbol = .ok d) : IsMade d
  | ofPowers (powers : Powers) : IsMade (ofPowers powers)
  | multiply {a b : Dimension} (ha : IsMade a) (hb : IsMade b) : IsMade (a.multiply b)
  | divide {a b : Dimension} (ha : IsMade a) (hb : IsMade b) : IsMade (a.divide b)
  | pow {d : Dimension} (n : ℤ) (hd : IsMade d) : IsMade (d.pow n)
  | inverse {d : Dimension} (hd : IsMade d) : IsMade d.inverse
  | root {d r : Dimension} {n : ℤ} (hd : IsMade d) (h : d.root n = .ok r) : IsMade r

theorem isBaseSymbol_of_readBase (h : readBase symbol = .ok d) :
    d = base symbol ∧ isBaseSymbol symbol.toList = true := by
  rw [readBase] at h
  split at h
  · next accepted => exact ⟨(Except.ok.inj h).symm, accepted⟩
  · cases h

/-- Every operation ends in the normal form. -/
theorem IsMade.isNormal (h : d.IsMade) : d.IsNormal := by
  cases h with
  | base h =>
      obtain ⟨rfl, -⟩ := isBaseSymbol_of_readBase h
      simp [IsNormal, Dimension.powers, Dimension.ofPowers, Powers.collect, Powers.ordered,
        Powers.insert]
  | ofPowers powers => exact isNormal_ofPowers powers
  | multiply => exact isNormal_ofPowers _
  | divide => exact isNormal_ofPowers _
  | pow => exact isNormal_ofPowers _
  | inverse => exact isNormal_ofPowers _
  | root _ h =>
      rw [Dimension.root] at h
      split at h
      · cases h
      · split at h
        · cases h
        · exact Except.ok.inj h ▸ isNormal_ofPowers _

theorem powers_ofPowers (powers : Powers) : (ofPowers powers).powers = powers.collect := by
  rw [ofPowers]
  split
  · next h => exact h.symm
  · rfl

/-- No exponent of a dimension in normal form is zero. -/
theorem IsNormal.ne_zero (normal : d.IsNormal) (mem : (symbol, e) ∈ d.powers) : e ≠ 0 := by
  rw [← normal, powers_ofPowers] at mem
  exact Powers.ne_zero_of_mem_collect mem

/-- A base is written as the product of its first power alone. -/
theorem text_eq (d : Dimension) : d.text = Factors.text d.powers := by
  cases d with
  | product powers => rfl
  | base symbol => simp [text, Dimension.powers, Factors.text, chars, side, factor, isShown]

/-! ## Bases -/

/-- A base symbol is a character between brackets. -/
theorem exists_of_isBaseSymbol {symbol : List Char} (h : isBaseSymbol symbol = true) :
    ∃ c, symbol = ['[', c, ']'] ∧ isBlank c = false := by
  unfold isBaseSymbol at h
  split at h
  · next c => exact ⟨c, rfl, by simpa using h⟩
  · cases h

/-- **A symbol ends at its first bracket.** -/
theorem splitSymbol_bracketed (closing : c ≠ ']') (rest : List Char) :
    splitSymbol ('[' :: c :: ']' :: rest) = some (['[', c, ']'], rest) := by
  simp [splitSymbol, closing]

/-- The exponent behind a symbol is read back without its sign. -/
theorem readSuffix?_exponentText (nonzero : e ≠ 0) (range : e.natAbs < 2 ^ 31) :
    readSuffix? (exponentText e) = some (e.natAbs : ℤ) := by
  rw [exponentText]
  split
  · have read := readSuperscript?_superscript range
    cases raised : superscript e.natAbs with
    | nil => exact absurd raised (superscript_ne_nil _)
    | cons digit rest =>
        have caret : digit ≠ '^' := by
          rintro rfl
          have raisedCaret : isSuperscript '^' = true :=
            isSuperscript_of_mem_superscript (n := e.natAbs) (raised ▸ List.mem_cons_self)
          cases raisedCaret
        rw [raised] at read
        simp [readSuffix?, caret, read]
  · next hidden =>
      rw [isShown_iff_of_range range] at hidden
      have one : e.natAbs = 1 := by omega
      rw [one]
      rfl

/-- **A factor is read back** without the sign of its exponent, unless its symbol ends early. -/
theorem readFactor_factor (accepted : isBaseSymbol symbol.toList = true)
    (closing : ∀ c, symbol.toList = ['[', c, ']'] → c ≠ ']') (nonzero : e ≠ 0)
    (range : e.natAbs < 2 ^ 31) : readFactor (factor symbol e) = .ok (symbol, (e.natAbs : ℤ)) := by
  obtain ⟨c, form, -⟩ := exists_of_isBaseSymbol accepted
  have split : splitSymbol (factor symbol e) = some (symbol.toList, exponentText e) := by
    rw [factor_eq, form]
    exact splitSymbol_bracketed (closing c form) _
  rw [readFactor, split]
  dsimp only
  rw [if_pos accepted, readSuffix?_exponentText nonzero range]
  dsimp only
  rw [String.ofList_toList]

/-! ## The sides of the line -/

section Sides

variable (bases : ∀ symbol e, (symbol, e) ∈ factors → isBaseSymbol symbol.toList = true)

include bases

/-- The characters of a base symbol are not blank. -/
theorem isBlank_of_bases : ∀ symbol e, (symbol, e) ∈ factors →
    ∀ c ∈ symbol.toList, isBlank c = false := by
  intro symbol e mem
  obtain ⟨c, form, solid⟩ := exists_of_isBaseSymbol (bases symbol e mem)
  rw [form]
  simpa using ⟨by decide, solid, by decide⟩

/-- A side begins with a bracket. -/
theorem exists_side_eq_cons (ne : factors ≠ []) : ∃ rest, side factors = '[' :: rest := by
  obtain ⟨⟨symbol, e⟩, rest, rfl⟩ := List.exists_cons_of_ne_nil ne
  obtain ⟨c, form, -⟩ := exists_of_isBaseSymbol (bases symbol e List.mem_cons_self)
  rcases eq_or_ne rest [] with rfl | more
  · simp [side_singleton, factor_eq, form]
  · simp [side_cons symbol e more, factor_eq, form]

theorem side_ne_one (ne : factors ≠ []) : side factors ≠ ['1'] := by
  obtain ⟨rest, eq⟩ := exists_side_eq_cons bases ne
  simp [eq]

/-- **The factors on one side of the line read back**, if each base keeps to its brackets. -/
theorem readSide_side (ne : factors ≠ [])
    (inner : ∀ symbol e c, (symbol, e) ∈ factors → symbol.toList = ['[', c, ']'] →
      separates c = false ∧ c ≠ ']')
    (range : ∀ symbol e, (symbol, e) ∈ factors → e ≠ 0 ∧ e.natAbs < 2 ^ 31) :
    readSide (side factors) = .ok (factors.map fun (symbol, e) => (symbol, (e.natAbs : ℤ))) := by
  have labels : ∀ power ∈ factors, ∀ c ∈ power.1.toList,
      isBlank c = false ∧ separates c = false := by
    rintro ⟨symbol, e⟩ mem c char
    refine ⟨isBlank_of_bases bases symbol e mem c char, ?_⟩
    obtain ⟨d, form, -⟩ := exists_of_isBaseSymbol (bases symbol e mem)
    rw [form] at char
    rcases List.mem_cons.mp char with rfl | char
    · decide
    · rcases List.mem_cons.mp char with rfl | char
      · exact (inner symbol e c mem form).1
      · rw [List.mem_singleton.mp char]
        decide
  have reads : ∀ power ∈ factors,
      readFactor (factor power.1 power.2) = .ok (power.1, (power.2.natAbs : ℤ)) := by
    rintro ⟨symbol, e⟩ mem
    obtain ⟨nonzero, small⟩ := range symbol e mem
    exact readFactor_factor (bases symbol e mem) (fun c form => (inner symbol e c mem form).2)
      nonzero small
  have whole : factors = factors.map fun power => (power.1, power.2) := (List.map_id' factors).symm
  rw [readSide, trim_side (isBlank_of_bases bases), if_neg (side_ne_one bases ne)]
  nth_rewrite 1 [whole]
  exact mapM_pieces_side ne labels reads

/-- **Where a side is read, each of its pieces is a factor.** -/
theorem exists_readFactor {p : Powers} (h : readSide (side factors) = .ok p)
    (mem : (symbol, e) ∈ factors) {piece : List Char}
    (part : piece ∈ pieces separates (factor symbol e)) :
    ∃ power, readFactor (trim piece) = .ok power := by
  have ne : factors ≠ [] := List.ne_nil_of_mem mem
  rw [readSide, trim_side (isBlank_of_bases bases), if_neg (side_ne_one bases ne), pieces_side ne] at h
  exact Outcome.exists_of_mem_mapM h (List.mem_flatMap.mpr ⟨(symbol, e), mem, part⟩)

/-- Where a side is read, each base keeps to its brackets. -/
theorem inner_of_readSide {p : Powers} (h : readSide (side factors) = .ok p)
    (mem : (symbol, e) ∈ factors) (form : symbol.toList = ['[', c, ']']) :
    separates c = false ∧ c ≠ ']' := by
  have chars : factor symbol e = '[' :: c :: ']' :: exponentText e := by
    rw [factor_eq, form]
    rfl
  constructor
  · by_contra parted
    have parted : separates c = true := by simpa using parted
    have part : ['['] ∈ pieces separates (factor symbol e) := by
      rw [chars, ← List.singleton_append, pieces_append parted]
      exact List.mem_append_left _ List.mem_cons_self
    obtain ⟨power, read⟩ := exists_readFactor bases h mem part
    cases read
  · rintro rfl
    have plain : ∀ c ∈ symbol.toList, separates c = false := by
      rw [form]
      simp [separates, dot]
    have part : factor symbol e ∈ pieces separates (factor symbol e) := by
      rw [pieces_factor plain]
      exact List.mem_cons_self
    obtain ⟨power, read⟩ := exists_readFactor bases h mem part
    rw [trim_factor (isBlank_of_bases bases symbol e mem), chars] at read
    cases read

/-- With a slash among the bases of a side, the text is cut inside its brackets. -/
theorem exists_cut_of_slash (mem : ("[/]", e) ∈ factors) : ∃ front back,
    side factors = front ++ '/' :: back ∧ (∀ c ∈ front, isLine c = false) ∧
      ['['] ∈ pieces separates front := by
  induction factors with
  | nil => cases mem
  | cons head rest ih =>
      obtain ⟨symbol, f⟩ := head
      obtain ⟨c, form, -⟩ := exists_of_isBaseSymbol (bases symbol f List.mem_cons_self)
      by_cases slash : c = '/'
      · -- the first slash stands in the first factor
        subst slash
        have free : ∀ c ∈ ['['], isLine c = false := List.forall_mem_singleton.mpr (by decide)
        have part : ['['] ∈ pieces separates ['['] := by decide
        refine ⟨['['], ?_⟩
        rcases eq_or_ne rest [] with rfl | more
        · exact ⟨']' :: exponentText f, by simp [side_singleton, factor_eq, form], free, part⟩
        · exact ⟨']' :: (exponentText f ++ dot :: side rest),
            by simp [side_cons symbol f more, factor_eq, form], free, part⟩
      · -- the first factor has none, and the slash stands in the others
        have other : ("[/]", e) ∈ rest := by
          refine (List.mem_cons.mp mem).resolve_left fun eq => slash ?_
          obtain ⟨rfl, -⟩ := Prod.mk.inj eq
          exact (List.cons.inj (List.cons.inj form).2).1.symm
        have plain : ∀ c ∈ factor symbol f, isLine c = false := by
          refine forall_mem_factor (fun c digit => (plain_of_isSuperscript digit).2.2) ?_
          rw [form]
          simpa [isLine] using slash
        obtain ⟨front, back, eq, free, part⟩ :=
          ih (fun symbol e mem => bases symbol e (List.mem_cons_of_mem _ mem)) other
        refine ⟨factor symbol f ++ dot :: front, back, ?_, ?_, ?_⟩
        · rw [side_cons symbol f (List.ne_nil_of_mem other), eq, List.append_assoc,
            List.cons_append]
        · intro c char
          rcases List.mem_append.mp char with char | char
          · exact plain c char
          · rcases List.mem_cons.mp char with rfl | char
            · decide
            · exact free c char
        · rw [pieces_append (by decide)]
          exact List.mem_append_right _ part

end Sides

/-! ## Both sides -/

/-- The powers above the line and those below it make up the whole. -/
theorem exponentOf_sides (powers : Powers) (symbol : String) :
    Powers.exponentOf (above powers ++ below powers) symbol = powers.exponentOf symbol := by
  rw [Powers.exponentOf_append]
  induction powers with
  | nil => rfl
  | cons head rest ih =>
      obtain ⟨other, e⟩ := head
      rw [Powers.exponentOf_cons, ← ih, above, below, List.filter_cons, List.filter_cons]
      rcases lt_trichotomy e 0 with negative | rfl | positive
      · rw [if_neg (by simpa using negative.le), if_pos (by simpa using negative),
          Powers.exponentOf_cons]
        exact Int.add_left_comm _ _ _
      · simp [above, below]
      · rw [if_pos (by simpa using positive), if_neg (by simpa using positive.le),
          Powers.exponentOf_cons]
        exact Int.add_assoc _ _ _

/-- What is read below the line, where anything stands there. -/
def readBelow (powers : Powers) : Measured Powers :=
  if (below powers).isEmpty then .ok [] else readSide (side (below powers))

section Whole

variable (bases : ∀ symbol e, (symbol, e) ∈ powers → isBaseSymbol symbol.toList = true)

include bases

theorem isBaseSymbol_of_mem_above : ∀ symbol e, (symbol, e) ∈ above powers →
    isBaseSymbol symbol.toList = true :=
  fun symbol e mem => bases symbol e (mem_above_iff.mp mem).1

theorem isBaseSymbol_of_mem_below : ∀ symbol e, (symbol, e) ∈ below powers →
    isBaseSymbol symbol.toList = true :=
  fun symbol e mem => bases symbol e (mem_below_iff.mp mem).1

/-- A product of bases is written without blanks, and is read from its first line on. -/
theorem readChars_chars : readChars (chars powers) =
    match cutAt isLine (chars powers) with
    | (front, Option.none) => ofPowers <$> readSide front
    | (front, some back) => do
      let positive ← readSide front
      let negative ← readSide back
      return ofPowers (positive ++ negative.scale (-1)) := by
  have trimmed : trim (chars powers) = chars powers :=
    trim_of_forall (isBlank_of_mem_chars (isBlank_of_bases bases))
  have written : (chars powers).isEmpty = false := by
    rw [chars_eq, aboveText]
    split
    · rfl
    · next some =>
        obtain ⟨rest, eq⟩ :=
          exists_side_eq_cons (isBaseSymbol_of_mem_above bases) (by simpa using some)
        rw [eq]
        rfl
  rw [readChars, trimmed]
  simp only [written]
  rfl

/-- **No base above the line is the slash**, where a product is read. -/
theorem not_slash_of_readChars (h : readChars (chars powers) = .ok d) (mem : ("[/]", e) ∈ powers) :
    ¬ 0 < e := by
  intro positive
  have mem : ("[/]", e) ∈ above powers := mem_above_iff.mpr ⟨mem, positive⟩
  obtain ⟨front, back, eq, free, part⟩ :=
    exists_cut_of_slash (isBaseSymbol_of_mem_above bases) mem
  have written : aboveText powers = front ++ '/' :: back := by
    rw [aboveText, if_neg (by simpa using List.ne_nil_of_mem mem), eq]
  obtain ⟨rest, whole⟩ : ∃ rest, chars powers = front ++ '/' :: rest := by
    rw [chars_eq, written, List.append_assoc, List.cons_append]
    exact ⟨_, rfl⟩
  rw [readChars_chars bases, whole, cutAt_append free (by decide)] at h
  obtain ⟨p, read, -⟩ := Outcome.bind_eq_ok.mp h
  have trimmed : trim front = front := by
    refine trim_of_forall fun c char => ?_
    refine isBlank_of_mem_chars (isBlank_of_bases bases) c ?_
    rw [whole]
    exact List.mem_append_left _ char
  have ne : front ≠ ['1'] := by
    rintro rfl
    simp [pieces, separates, dot] at part
  rw [readSide, trimmed, if_neg ne] at read
  obtain ⟨power, read⟩ := Outcome.exists_of_mem_mapM read part
  cases read

/-- **Both sides are read** for themselves, if no base above the line is the slash. -/
theorem readChars_chars_of_slashless (slashless : ∀ e, ("[/]", e) ∈ powers → ¬ 0 < e) :
    readChars (chars powers) = do
      let positive ← readSide (aboveText powers)
      let negative ← readBelow powers
      return ofPowers (positive ++ negative.scale (-1)) := by
  have free : ∀ symbol e, (symbol, e) ∈ above powers →
      ∀ c ∈ symbol.toList, isLine c = false := by
    intro symbol e mem
    obtain ⟨c, form, -⟩ := exists_of_isBaseSymbol (isBaseSymbol_of_mem_above bases symbol e mem)
    have other : c ≠ '/' := by
      rintro rfl
      obtain rfl : symbol = "[/]" := String.toList_inj.mp form
      exact slashless e (mem_above_iff.mp mem).1 (mem_above_iff.mp mem).2
    rw [form]
    simpa [isLine] using other
  rw [readChars_chars bases, cutAt_chars free]
  cases empty : (below powers).isEmpty with
  | true =>
      rw [readBelow, empty, if_pos rfl, if_pos rfl]
      change ofPowers <$> readSide (aboveText powers) = _
      cases readSide (aboveText powers) with
      | error => rfl
      | ok positive =>
          change Except.ok (ofPowers positive) = Except.ok (ofPowers (positive ++ []))
          rw [List.append_nil]
  | false => rw [readBelow, empty, if_neg (by decide), if_neg (by decide)]

section Legible

variable (inner : ∀ symbol e c, (symbol, e) ∈ powers → symbol.toList = ['[', c, ']'] →
    separates c = false ∧ c ≠ ']')
  (range : ∀ symbol e, (symbol, e) ∈ powers → e.natAbs < 2 ^ 31)

include inner range

theorem readSide_aboveText : readSide (aboveText powers) = .ok (above powers) := by
  rw [aboveText]
  split
  · next empty =>
      rw [List.isEmpty_iff.mp empty]
      rfl
  · next some =>
      rw [readSide_side (isBaseSymbol_of_mem_above bases) (by simpa using some),
        map_above fun e positive => Int.natAbs_of_nonneg positive.le]
      · exact fun symbol e c mem => inner symbol e c (mem_above_iff.mp mem).1
      · intro symbol e mem
        obtain ⟨mem, positive⟩ := mem_above_iff.mp mem
        exact ⟨positive.ne', range symbol e mem⟩

theorem readBelow_eq : readBelow powers =
    .ok ((below powers).map fun (symbol, e) => (symbol, (e.natAbs : ℤ))) := by
  rw [readBelow]
  split
  · next empty =>
      rw [List.isEmpty_iff.mp empty]
      rfl
  · next some =>
      refine readSide_side (isBaseSymbol_of_mem_below bases) (by simpa using some) ?_ ?_
      · exact fun symbol e c mem => inner symbol e c (mem_below_iff.mp mem).1
      · intro symbol e mem
        obtain ⟨mem, negative⟩ := mem_below_iff.mp mem
        exact ⟨negative.ne, range symbol e mem⟩

end Legible

end Whole

/-- **Dimensions that read back.**  The text of a dimension denotes the dimension exactly if no base
is a character that parts or ends a factor, and the slash is no base above the line. -/
theorem read_text_iff (made : d.IsMade)
    (bases : ∀ symbol e, (symbol, e) ∈ d.powers → readBase symbol = .ok (base symbol))
    (range : ∀ symbol e, (symbol, e) ∈ d.powers → e.natAbs < 2 ^ 31) :
    read d.text = .ok d ↔
      (∀ symbol e c, (symbol, e) ∈ d.powers → symbol.toList = ['[', c, ']'] →
        c ≠ '·' ∧ c ≠ '*' ∧ c ≠ ']') ∧
      ∀ e, ("[/]", e) ∈ d.powers → ¬ 0 < e := by
  have normal : d.IsNormal := made.isNormal
  have bases : ∀ symbol e, (symbol, e) ∈ d.powers → isBaseSymbol symbol.toList = true :=
    fun symbol e mem => (isBaseSymbol_of_readBase (bases symbol e mem)).2
  have legible : ∀ c, separates c = false ∧ c ≠ ']' ↔ c ≠ '·' ∧ c ≠ '*' ∧ c ≠ ']' := by
    intro c
    simp [separates, dot, and_assoc]
  simp only [← legible]
  rw [read, text_eq, Factors.text, String.toList_ofList]
  constructor
  · intro h
    have slashless : ∀ e, ("[/]", e) ∈ d.powers → ¬ 0 < e :=
      fun e mem => not_slash_of_readChars bases h mem
    refine ⟨?_, slashless⟩
    rw [readChars_chars_of_slashless bases slashless] at h
    obtain ⟨positive, readAbove, h⟩ := Outcome.bind_eq_ok.mp h
    obtain ⟨negative, readBelow, -⟩ := Outcome.bind_eq_ok.mp h
    intro symbol e c mem form
    rcases lt_or_gt_of_ne (normal.ne_zero mem) with sign | sign
    · have mem : (symbol, e) ∈ below d.powers := mem_below_iff.mpr ⟨mem, sign⟩
      rw [Dimension.readBelow, if_neg (by simpa using List.ne_nil_of_mem mem)] at readBelow
      exact inner_of_readSide (isBaseSymbol_of_mem_below bases) readBelow mem form
    · have mem : (symbol, e) ∈ above d.powers := mem_above_iff.mpr ⟨mem, sign⟩
      rw [aboveText, if_neg (by simpa using List.ne_nil_of_mem mem)] at readAbove
      exact inner_of_readSide (isBaseSymbol_of_mem_above bases) readAbove mem form
  · rintro ⟨inner, slashless⟩
    rw [readChars_chars_of_slashless bases slashless, readSide_aboveText bases inner range,
      readBelow_eq bases inner range]
    have signed : Powers.scale
        ((below d.powers).map fun (symbol, e) => (symbol, (e.natAbs : ℤ))) (-1) = below d.powers := by
      rw [Powers.scale, List.map_map]
      have sign : ∀ e : ℤ, e < 0 → (e.natAbs : ℤ) * -1 = e := by omega
      exact map_below sign
    change Except.ok (ofPowers _) = Except.ok d
    rw [signed, ofPowers_congr (exponentOf_sides d.powers), normal]

/-- Below the line the slash is a base like any other. -/
theorem read_text_area_per_slash :
    read (ofPowers [("[L]", 2), ("[/]", -1)]).text = .ok (ofPowers [("[L]", 2), ("[/]", -1)]) := by
  have named : ∀ symbol e, (symbol, e) ∈ (ofPowers [("[L]", 2), ("[/]", -1)]).powers →
      symbol = "[/]" ∧ e = -1 ∨ symbol = "[L]" ∧ e = 2 := by
    have powers : (ofPowers [("[L]", 2), ("[/]", -1)]).powers = [("[/]", -1), ("[L]", 2)] := by
      decide
    simp [powers]
  refine (read_text_iff (.ofPowers _) ?_ ?_).mpr ⟨?_, ?_⟩
  · intro symbol e mem
    rcases named symbol e mem with ⟨rfl, rfl⟩ | ⟨rfl, rfl⟩ <;> decide
  · intro symbol e mem
    rcases named symbol e mem with ⟨rfl, rfl⟩ | ⟨rfl, rfl⟩ <;> decide
  · intro symbol e c mem form
    rcases named symbol e mem with ⟨rfl, rfl⟩ | ⟨rfl, rfl⟩
    · obtain rfl : '/' = c := (List.cons.inj (List.cons.inj form).2).1
      decide
    · obtain rfl : 'L' = c := (List.cons.inj (List.cons.inj form).2).1
      decide
  · intro e mem
    rcases named _ e mem with ⟨-, rfl⟩ | ⟨eq, -⟩
    · decide
    · exact absurd eq (by decide)

/-- A dot between brackets is taken for the dot between two factors. -/
example : (read (ofPowers [("[L]", 1), ("[·]", 2)]).text).toOption = Option.none := by decide

end Dimension

end Tariff
