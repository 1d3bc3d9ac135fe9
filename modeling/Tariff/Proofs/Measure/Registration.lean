import Mathlib.Data.List.Induction
import Tariff.Measure.Catalogue
import Tariff.Proofs.Outcome

/-!
# Registering is local

An expression is read by looking up the expression itself and the symbols of its
factors.  What is registered for other symbols does not matter, and of what is
registered for one symbol only the last unit does.

## Main definitions

* `Catalogue.factorSymbols` — the symbols of the factors of an expression
* `Catalogue.lookedUp` — all symbols that reading an expression may look up
* `Registration`, `Catalogue.accept`, `Catalogue.acceptAll` — units that are
  registered, one or several in turn
* `Registration.last?` — the unit registered last for a symbol

## Main statements

* `Catalogue.read_congr` — what an expression denotes depends on the units found
  for the symbols looked up, and on nothing else
* `Catalogue.find?_acceptAll` — what is found after a run of registrations
* `Catalogue.registering_local` — registering is local

## Design notes

Reading an expression stops at the first factor that cannot be read, and with it
looks up fewer symbols than the expression has.  The symbols are therefore read
off the text alone, without a catalogue: all of them up to the last factor, but
none where a side of the line is a plain one or where nothing stands below the
line that could be read.  Catalogues may hold the same units in another order, so
that catalogues are compared by what is read and not as lists of entries.
-/

namespace Tariff

namespace Catalogue

/-! ## The symbols that are looked up -/

/-- The symbol of a factor that can be taken apart. -/
def factorSymbol? (factor : List Char) : Option String :=
  match splitFactor (Text.trim factor) with
  | .ok (symbol, _) => some (String.ofList symbol)
  | .error _ => none

/-- The symbols of the factors on one side of the line. -/
def sideSymbols (side : List Char) : List String :=
  if isUnitySide (Text.trim side) then []
  else (Text.pieces Factors.separates (Text.trim side)).filterMap factorSymbol?

/-- The expression without the blanks around it. -/
def subject (text : String) : String :=
  String.ofList (Text.trim text.toList)

/-- **The symbols of the factors** of an expression.  Nothing is read below the line
where nothing or another line stands there. -/
def factorSymbols (text : String) : List String :=
  match Text.cutAt Factors.isLine (Text.trim text.toList) with
  | (above, none) => sideSymbols above
  | (above, some below) =>
    sideSymbols above ++
      if (Text.trim below).isEmpty || below.any Factors.isLine then [] else sideSymbols below

/-- **The symbols that may be looked up** when an expression is read. -/
def lookedUp (text : String) : List String :=
  subject text :: factorSymbols text

variable {c d : Catalogue}

theorem lookup_congr {symbol : String} (h : c.find? symbol = d.find? symbol) :
    c.lookup symbol = d.lookup symbol := by
  rw [lookup, lookup, h]

theorem readFactor_congr {factor : List Char}
    (h : ∀ symbol, factorSymbol? factor = some symbol → c.find? symbol = d.find? symbol) :
    c.readFactor (Text.trim factor) = d.readFactor (Text.trim factor) := by
  rw [readFactor, readFactor]
  cases split : splitFactor (Text.trim factor) with
  | error e => rfl
  | ok parts =>
      have symbol : factorSymbol? factor = some (String.ofList parts.1) := by
        rw [factorSymbol?, split]
      simp only [bind, Except.bind, lookup_congr (h _ symbol)]

theorem readSide_congr {side : List Char}
    (h : ∀ symbol ∈ sideSymbols side, c.find? symbol = d.find? symbol) :
    c.readSide side = d.readSide side := by
  rw [readSide, readSide]
  by_cases unity : isUnitySide (Text.trim side) = true
  · rw [if_pos unity, if_pos unity]
  · rw [sideSymbols, if_neg unity] at h
    rw [if_neg unity, if_neg unity]
    refine Outcome.mapM_congr fun piece mem => readFactor_congr fun symbol eq => ?_
    exact h symbol (List.mem_filterMap.mpr ⟨piece, mem, eq⟩)

theorem readTerms_congr {text : String}
    (h : ∀ symbol ∈ factorSymbols text, c.find? symbol = d.find? symbol) :
    c.readTerms (Text.trim text.toList) = d.readTerms (Text.trim text.toList) := by
  rw [factorSymbols] at h
  rw [readTerms, readTerms]
  cases cut : Text.cutAt Factors.isLine (Text.trim text.toList) with
  | mk above rest =>
      rw [cut] at h
      cases rest with
      | none => exact readSide_congr h
      | some below =>
          have positive := readSide_congr fun symbol mem =>
            h symbol (List.mem_append_left _ mem)
          dsimp only at h ⊢
          rw [positive]
          split
          · rfl
          · next read =>
              rw [if_neg read] at h
              have negative := readSide_congr fun symbol mem =>
                h symbol (List.mem_append_right _ mem)
              rw [negative]

/-- **What an expression denotes** depends on the units found for the symbols that are
looked up. -/
theorem read_congr {text : String}
    (h : ∀ symbol ∈ lookedUp text, c.find? symbol = d.find? symbol) :
    c.read text = d.read text := by
  obtain ⟨whole, factors⟩ := List.forall_mem_cons.mp h
  rw [subject] at whole
  rw [read, read, readChars, readChars]
  simp only [whole, readTerms_congr factors]

/-- **A symbol in the catalogue** wins over taking the expression apart. -/
theorem read_of_find?_subject {text : String} {unit : MeasureUnit}
    (h : c.find? (subject text) = some unit) : c.read text = .ok unit := by
  rw [subject] at h
  rw [read, readChars]
  simp only [h]

end Catalogue

/-! ## Registrations -/

/-- **A registration** enters a unit into a catalogue. -/
inductive Registration where
  /-- Under the symbol of the unit. -/
  | own (unit : MeasureUnit)
  /-- Under another symbol. -/
  | under (symbol : String) (unit : MeasureUnit)

namespace Registration

/-- The symbol under which a unit is entered. -/
def symbol : Registration → String
  | own unit => unit.symbol
  | under symbol _ => symbol

/-- The unit that is entered. -/
def unit : Registration → MeasureUnit
  | own unit => unit
  | under _ unit => unit

/-- The unit registered last for a symbol. -/
def last? (registrations : List Registration) (symbol : String) : Option MeasureUnit :=
  (registrations.reverse.find? fun r => r.symbol == symbol).map unit

/-- Later registrations go before earlier ones. -/
theorem last?_append (earlier later : List Registration) (symbol : String) :
    last? (earlier ++ later) symbol = (last? later symbol).or (last? earlier symbol) := by
  rw [last?, last?, last?, List.reverse_append, List.find?_append, Option.map_or]

theorem last?_singleton (r : Registration) (symbol : String) :
    last? [r] symbol = if symbol = r.symbol then some r.unit else none := by
  by_cases same : symbol = r.symbol
  · simp [last?, same]
  · have differ : (r.symbol == symbol) = false := beq_eq_false_iff_ne.mpr (Ne.symm same)
    simp [last?, same, differ]

/-- Two registrations for different symbols may be made in either order. -/
theorem last?_swap {r other : Registration} (ne : r.symbol ≠ other.symbol)
    (before after : List Registration) (symbol : String) :
    last? (before ++ r :: other :: after) symbol = last? (before ++ other :: r :: after) symbol := by
  have pair : last? [r, other] symbol = last? [other, r] symbol := by
    rw [← List.singleton_append, last?_append, ← List.singleton_append (l := [r]), last?_append,
      last?_singleton, last?_singleton]
    by_cases first : symbol = r.symbol
    · rw [if_neg (fun second => ne (first.symm.trans second)), Option.none_or, Option.or_none]
    · rw [if_neg first, Option.none_or, Option.or_none]
  have split (x y : Registration) : before ++ x :: y :: after = before ++ ([x, y] ++ after) := rfl
  rw [split, split, last?_append, last?_append [r, other], pair, ← last?_append [other, r],
    ← last?_append]

end Registration

namespace Catalogue

/-- The catalogue with a registration made. -/
def accept (c : Catalogue) : Registration → Catalogue
  | .own unit => c.register unit
  | .under symbol unit => c.enter symbol unit

/-- The catalogue with some registrations made, one after the other. -/
def acceptAll (c : Catalogue) (registrations : List Registration) : Catalogue :=
  registrations.foldl accept c

variable {c : Catalogue}

/-- A registration changes what is found for its symbol and for no other. -/
theorem find?_accept (r : Registration) (symbol : String) :
    (c.accept r).find? symbol = if symbol = r.symbol then some r.unit else c.find? symbol := by
  cases r with
  | own unit => exact c.find?_enter unit.symbol symbol unit
  | under other unit => exact c.find?_enter other symbol unit

/-- **After a run of registrations** the unit registered last is found for a symbol, and for
a symbol without registrations the unit found before. -/
theorem find?_acceptAll (registrations : List Registration) (symbol : String) :
    (c.acceptAll registrations).find? symbol =
      (Registration.last? registrations symbol).or (c.find? symbol) := by
  induction registrations using List.reverseRecOn with
  | nil => rfl
  | append_singleton before r ih =>
      rw [acceptAll, List.foldl_append, List.foldl_cons, List.foldl_nil, find?_accept,
        Registration.last?_append, Registration.last?_singleton]
      split
      · rfl
      · exact ih

/-- Runs of registrations read an expression alike if they end with the same units for the
symbols that are looked up. -/
theorem read_acceptAll_congr {first second : List Registration} {text : String}
    (h : ∀ symbol ∈ lookedUp text,
      Registration.last? first symbol = Registration.last? second symbol) :
    (c.acceptAll first).read text = (c.acceptAll second).read text := by
  refine read_congr fun symbol mem => ?_
  rw [find?_acceptAll, find?_acceptAll, h symbol mem]

/-- **Registering is local.**  A registration for a symbol that is neither the expression
nor the symbol of a factor of it leaves what the expression denotes as it is, be it a unit or an
error, and one for the expression itself makes it denote the unit registered.  Of several
registrations only the last one for each symbol that is looked up matters, and two for different
symbols may be made in either order. -/
theorem registering_local (c : Catalogue) (r : Registration) (text : String) :
    (subject text ≠ r.symbol → r.symbol ∉ factorSymbols text →
      (c.accept r).read text = c.read text) ∧
    (subject text = r.symbol → (c.accept r).read text = .ok r.unit) ∧
    (∀ first second, (∀ symbol ∈ lookedUp text,
        Registration.last? first symbol = Registration.last? second symbol) →
      (c.acceptAll first).read text = (c.acceptAll second).read text) ∧
    (∀ before other after, r.symbol ≠ other.symbol →
      (c.acceptAll (before ++ r :: other :: after)).read text =
        (c.acceptAll (before ++ other :: r :: after)).read text) := by
  refine ⟨fun whole factors => ?_, fun whole => ?_, fun _ _ => read_acceptAll_congr, ?_⟩
  · refine read_congr fun symbol mem => ?_
    rw [find?_accept, if_neg]
    rintro rfl
    exact (List.mem_cons.mp mem).elim (fun eq => whole eq.symm) factors
  · exact read_of_find?_subject (by rw [find?_accept, if_pos whole])
  · intro before other after ne
    exact read_acceptAll_congr fun symbol _ => Registration.last?_swap ne before after symbol

/-- A symbol that looks like a price changes what is read of its own text, but not of the same
price with blanks around the line; and a symbol for the plain side of a price is not looked up. -/
theorem registering_local_price :
    ((standard.accept (.under "c/kWh" .percent)).read "c / kWh" = standard.read "c / kWh") ∧
    ((standard.accept (.under "c/kWh" .percent)).read " c/kWh " = .ok .percent) ∧
    ((standard.acceptAll [.under "h" .percent, .under "1" .percent, .own .hour]).read "1/h²" =
      (standard.acceptAll [.own .hour]).read "1/h²") ∧
    ((standard.acceptAll [.under "h" .day, .under "d" .hour]).read "EUR·h/d" =
      (standard.acceptAll [.under "d" .hour, .under "h" .day]).read "EUR·h/d") := by
  refine ⟨?_, ?_, ?_, ?_⟩
  · exact (registering_local standard (.under "c/kWh" .percent) "c / kWh").1 (by decide) (by decide)
  · exact (registering_local standard (.under "c/kWh" .percent) " c/kWh ").2.1 (by decide)
  · have looked : lookedUp "1/h²" = ["1/h²", "h"] := by decide
    refine (registering_local standard (.own .hour) "1/h²").2.2.1 _ _ ?_
    rw [looked]
    exact List.forall_mem_cons.mpr ⟨rfl, List.forall_mem_singleton.mpr rfl⟩
  · exact (registering_local standard (.under "h" .day) "EUR·h/d").2.2.2 [] (.under "d" .hour) []
      (by decide)

end Catalogue

end Tariff
