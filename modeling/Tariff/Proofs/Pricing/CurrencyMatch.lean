import Tariff.Proofs.Measure.PriceUnit
import Tariff.Proofs.Pricing.Fees

/-!
# The currency of a contract and that of a series

A currency is named by a text, with blanks around it or without, and in a series it may be
written in any case.  A contract that names a currency compares its text with that of the
series, and not the currencies that the two name.  Where no blanks stand around the texts
this is the same.

## Main definitions

* `MeasureUnit.SameCurrency` — two texts that name one currency

## Main statements

* `Text.trim_map_toUpper` — blanks are taken off before or after a change of case
* `MeasureUnit.sameCurrency_iff` — one currency is named by texts that differ in blanks only
* `Contract.exists_targetUnit_iff`, `Contract.targetUnit_eq_mismatch` — what a contract in
  order makes of a series
* `Contract.targetUnit_compares` — where that is a comparison of currencies
* `Contract.targetUnit_padded` — a contract that refuses its own currency

## Design notes

The text of a currency is read three times: by validation, by the comparison and for the
unit of prices.  The first and the last take the blanks off, and so a text with blanks
around it is in order.  The comparison leaves them on.
-/

namespace Tariff

namespace Text

variable {c : Char}

/-- Nothing from the first capital letter to the last small one is blank. -/
theorem isBlank_of_letter (low : 65 ≤ c.toNat) (high : c.toNat ≤ 122) : isBlank c = false := by
  simp only [isBlank, Bool.or_eq_false_iff, Bool.and_eq_false_iff, decide_eq_false_iff_not,
    beq_eq_false_iff_ne]
  omega

/-- What is blank does not depend on the case. -/
theorem isBlank_toUpper (c : Char) : isBlank c.toUpper = isBlank c := by
  unfold Char.toUpper
  split
  · next letter =>
      have low : 97 ≤ c.val.toNat := letter.1
      have high : c.val.toNat ≤ 122 := letter.2
      have raised : (c.val + ('A'.val - 'a'.val)).toNat = c.val.toNat - 32 := by
        have distance : ('A'.val - 'a'.val).toNat = 4294967264 := by decide
        rw [UInt32.toNat_add]
        omega
      rw [isBlank_of_letter (c := c) (by unfold Char.toNat; omega) high]
      refine isBlank_of_letter ?_ ?_ <;> rw [Char.toNat, raised] <;> omega
  · rfl

/-- **Blanks are taken off** before or after a change of case. -/
theorem trim_map_toUpper (text : List Char) :
    trim (text.map Char.toUpper) = (trim text).map Char.toUpper := by
  have blank : isBlank ∘ Char.toUpper = isBlank := funext isBlank_toUpper
  rw [trim, trim, trimStart, trimStart, trimEnd, trimEnd, List.dropWhile_map, blank,
    ← List.map_reverse, List.dropWhile_map, blank, ← List.map_reverse]

/-- A text without blanks around it has none in upper case. -/
theorem trim_upper {text : String} (bare : trim text.toList = text.toList) :
    trim (upper text).toList = (upper text).toList := by
  rw [upper, String.toList_ofList, trim_map_toUpper, bare]

end Text

/-! ## Texts that name a currency -/

namespace MeasureUnit

variable {code other : String} {unit : MeasureUnit}

/-- **A currency is named** by three capital letters, with blanks around them or without. -/
theorem currency_eq_ok_iff : currency code = .ok unit ↔
    isCurrencyCode (Text.trim code.toList) = true ∧
      unit = money (String.ofList (Text.trim code.toList)) false := by
  constructor
  · intro h
    refine ⟨?_, currency_eq_ok h⟩
    rw [currency] at h
    split at h
    · next accepted => exact accepted
    · cases h
  · rintro ⟨accepted, rfl⟩
    exact if_pos accepted

/-- **Two texts that name one currency.** -/
def SameCurrency (code other : String) : Prop :=
  ∃ root, currency code = .ok root ∧ currency other = .ok root

/-- They differ in nothing but the blanks around them. -/
theorem sameCurrency_iff : SameCurrency code other ↔
    (∃ root, currency code = .ok root) ∧ Text.trim code.toList = Text.trim other.toList := by
  constructor
  · rintro ⟨root, first, second⟩
    refine ⟨⟨root, first⟩, ?_⟩
    obtain ⟨-, rfl⟩ := currency_eq_ok_iff.mp first
    obtain ⟨-, same⟩ := currency_eq_ok_iff.mp second
    exact String.ofList_injective (primitive.inj same).1
  · rintro ⟨⟨root, named⟩, same⟩
    refine ⟨root, named, ?_⟩
    rwa [currency_eq_ok_iff, ← same, ← currency_eq_ok_iff]

/-- Texts without blanks around them name one currency when they are the same. -/
theorem sameCurrency_iff_eq (bare : Text.trim code.toList = code.toList)
    (bare' : Text.trim other.toList = other.toList) :
    SameCurrency code other ↔ (∃ root, currency code = .ok root) ∧ code = other := by
  rw [sameCurrency_iff, bare, bare', String.toList_inj]

end MeasureUnit

/-! ## Contracts that name a currency -/

namespace Contract

open MeasureUnit (SameCurrency)

variable {c : Contract} {code expected found series : String}

theorem termOf_eq_ok {α : Type} {name : String} {x : Measured α} {a : α} :
    termOf name x = .ok a ↔ x = .ok a := by
  cases x <;> simp [termOf]

/-- **A contract in order** names units that there are. -/
theorem named_of_validate (h : c.validate = .ok ⟨⟩) :
    (∃ energy, MeasureUnit.energyNamed c.energyUnit = .ok energy) ∧
      ∀ code, c.currency = some code → ∃ root, MeasureUnit.currency code = .ok root := by
  obtain ⟨⟨⟩, -, h⟩ := Outcome.bind_eq_ok.mp h
  obtain ⟨⟨⟩, -, h⟩ := Outcome.bind_eq_ok.mp h
  obtain ⟨energy, named, h⟩ := Outcome.bind_eq_ok.mp h
  obtain ⟨⟨⟩, checked, -⟩ := Outcome.bind_eq_ok.mp h
  refine ⟨⟨energy, termOf_eq_ok.mp named⟩, fun code stated => ?_⟩
  rw [checkCurrency, stated] at checked
  obtain ⟨root, known, -⟩ := Outcome.map_eq_ok.mp checked
  exact ⟨root, termOf_eq_ok.mp known⟩

/-- **Another text is refused.** -/
theorem targetUnit_of_ne (stated : c.currency = some code) (different : Text.upper series ≠ code) :
    c.targetUnit series = .error (.currencyMismatch code (Text.upper series)) := by
  have refused : c.checkSeriesCurrency (Text.upper series) =
      .error (.currencyMismatch code (Text.upper series)) := by
    rw [checkSeriesCurrency, stated]
    exact if_neg different.symm
  rw [targetUnit, refused]
  rfl

/-- **A series is taken** when its text in upper case is that of the contract. -/
theorem exists_targetUnit_iff (valid : c.validate = .ok ⟨⟩) (stated : c.currency = some code)
    (series : String) : (∃ unit, c.targetUnit series = .ok unit) ↔ Text.upper series = code := by
  constructor
  · rintro ⟨unit, h⟩
    by_contra different
    rw [targetUnit_of_ne stated different] at h
    cases h
  · rintro rfl
    obtain ⟨⟨energy, metered⟩, currency⟩ := named_of_validate valid
    obtain ⟨root, known⟩ := currency _ stated
    have checked : c.checkSeriesCurrency (Text.upper series) = .ok ⟨⟩ := by
      rw [checkSeriesCurrency, stated]
      exact if_pos rfl
    have told : ∃ unit, moneyPerEnergy (Text.upper series) c.energyUnit c.useSubunit = .ok unit := by
      rw [moneyPerEnergy_eq_map known, metered]
      exact ⟨_, rfl⟩
    obtain ⟨unit, told⟩ := told
    exact ⟨unit, Outcome.bind_eq_ok.mpr ⟨⟨⟩, checked, Outcome.ofMeasured_eq_ok.mpr told⟩⟩

/-- **Otherwise the error** names both texts. -/
theorem targetUnit_eq_mismatch (valid : c.validate = .ok ⟨⟩) (stated : c.currency = some code)
    (series : String) : c.targetUnit series = .error (.currencyMismatch expected found) ↔
      Text.upper series ≠ code ∧ expected = code ∧ found = Text.upper series := by
  constructor
  · intro h
    have different : Text.upper series ≠ code := by
      intro same
      obtain ⟨unit, taken⟩ := (exists_targetUnit_iff valid stated series).mpr same
      cases h.symm.trans taken
    have said := h.symm.trans (targetUnit_of_ne stated different)
    obtain ⟨left, right⟩ := PricingError.currencyMismatch.inj (Except.error.inj said)
    exact ⟨different, left, right⟩
  · rintro ⟨different, rfl, rfl⟩
    exact targetUnit_of_ne stated different

/-- **The comparison of currencies.**  A contract in order that names a currency takes a series when
the two texts are equal up to the case of the series, and refuses it otherwise, with both texts.
What it takes is in its currency.  What it refuses may be in its currency too, with other blanks
around the text.  Where no blanks stand around either text, the series is taken if it is in the
currency of the contract and refused if it is not. -/
theorem targetUnit_compares (valid : c.validate = .ok ⟨⟩) (stated : c.currency = some code)
    (series : String) :
    ((∃ unit, c.targetUnit series = .ok unit) ↔ Text.upper series = code) ∧
    (∀ expected found, c.targetUnit series = .error (.currencyMismatch expected found) ↔
      Text.upper series ≠ code ∧ expected = code ∧ found = Text.upper series) ∧
    (∀ unit, c.targetUnit series = .ok unit → SameCurrency code (Text.upper series)) ∧
    (SameCurrency code (Text.upper series) ↔
      Text.trim code.toList = Text.trim (Text.upper series).toList) ∧
    (Text.trim code.toList = code.toList → Text.trim series.toList = series.toList →
      ((∃ unit, c.targetUnit series = .ok unit) ↔ SameCurrency code (Text.upper series)) ∧
      ((∃ expected found, c.targetUnit series = .error (.currencyMismatch expected found)) ↔
        ¬ SameCurrency code (Text.upper series))) := by
  have named := (named_of_validate valid).2 code stated
  have taken := exists_targetUnit_iff valid stated series
  refine ⟨taken, fun _ _ => targetUnit_eq_mismatch valid stated series, ?_, ?_, ?_⟩
  · intro unit h
    obtain ⟨root, known⟩ := named
    rw [taken.mp ⟨unit, h⟩]
    exact ⟨root, known, known⟩
  · rw [MeasureUnit.sameCurrency_iff, and_iff_right named]
  · intro bare bare'
    have same : SameCurrency code (Text.upper series) ↔ Text.upper series = code := by
      rw [MeasureUnit.sameCurrency_iff_eq bare (Text.trim_upper bare'), and_iff_right named, eq_comm]
    refine ⟨taken.trans same.symm, ?_⟩
    rw [same]
    constructor
    · rintro ⟨expected, found, h⟩
      exact ((targetUnit_eq_mismatch valid stated series).mp h).1
    · intro different
      exact ⟨code, Text.upper series, targetUnit_of_ne stated different⟩

/-- The contract that names a currency and nothing else. -/
def inCurrency (code : String) : Contract :=
  { Contract.default with currency := some code }

/-- A contract in euros takes a series in euros, written small, and refuses one in kronor. -/
theorem targetUnit_compares_euro : (inCurrency "EUR").validate = .ok ⟨⟩ ∧
    (∃ unit, (inCurrency "EUR").targetUnit "eur" = .ok unit) ∧
      ∃ expected found,
        (inCurrency "EUR").targetUnit "sek" = .error (.currencyMismatch expected found) := by
  have valid : (inCurrency "EUR").validate = .ok ⟨⟩ := by decide +kernel
  have bare : Text.trim "EUR".toList = "EUR".toList := by decide
  obtain ⟨-, -, -, -, euros⟩ := targetUnit_compares valid rfl "eur"
  obtain ⟨-, -, -, names, kronor⟩ := targetUnit_compares valid rfl "sek"
  refine ⟨valid, (euros bare (by decide)).1.mpr ⟨_, rfl, rfl⟩, ?_⟩
  refine (kronor bare (by decide)).2.mpr ?_
  rw [names]
  decide

/-- **A contract may refuse its own currency.**  With a blank before its text, a contract in euros is
in order and names the currency of a series in euros, and refuses the series. -/
theorem targetUnit_padded : (inCurrency " EUR").validate = .ok ⟨⟩ ∧
    SameCurrency " EUR" (Text.upper "EUR") ∧
      (inCurrency " EUR").targetUnit "EUR" = .error (.currencyMismatch " EUR" "EUR") := by
  refine ⟨by decide +kernel, ⟨_, rfl, rfl⟩, ?_⟩
  exact targetUnit_of_ne rfl (by decide)

end Contract

end Tariff
