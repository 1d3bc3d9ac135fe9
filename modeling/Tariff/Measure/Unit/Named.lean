import Tariff.Measure.Error
import Tariff.Measure.Unit
import Tariff.Text.Order

/-!
# Units with a name of their own

## Main definitions

* `MeasureUnit.currency`, `MeasureUnit.subunit` — money and its hundredth
* `MeasureUnit.percent`, `second` to `year`, `joule` to `gigawattHour`
* `MeasureUnit.energyNamed` — an energy unit from a name in any case

## Design notes

A currency is named by three capital letters; which of them are in use is not checked here.  Every
currency is a root unit of its own, so that no factor leads from one to another.
-/

namespace Tariff.MeasureUnit

/-- A hundredth of the unit of plain numbers. -/
def percent : MeasureUnit := one.scaled "%" "percent" (.ofDigits 1 2)

/-! ## Money -/

/-- Whether a text has the form of a currency code: three capital letters. -/
def isCurrencyCode (code : List Char) : Bool :=
  code.length == 3 && code.all Char.isUpper

/-- The currency with the given code. -/
def currency (code : String) : Measured MeasureUnit :=
  let code := Text.trim code.toList
  if isCurrencyCode code then
    .ok (primitive (String.ofList code) (String.ofList code) Dimension.currency)
  else
    .error (.unknownUnit (String.ofList code))

/-- The symbol and the name of the hundredth part of a currency. -/
def subunitLabels (code : String) : String × String :=
  match code with
  | "EUR" => ("c", "cent")
  | "USD" => ("¢", "cent")
  | "GBP" => ("p", "penny")
  | "SEK" => ("öre", "öre")
  | "NOK" => ("øre", "øre")
  | code => ("c" ++ code, code ++ " cent")

/-- The hundredth part of a currency. -/
def subunit (unit : MeasureUnit) : Measured MeasureUnit :=
  match unit with
  | primitive symbol _ dimension =>
    if dimension = Dimension.currency then
      let (label, name) := subunitLabels symbol
      .ok (unit.scaled label name (.ofDigits 1 2))
    else
      .error (.unconvertible unit.symbol "currency subunit")
  | _ => .error (.unconvertible unit.symbol "currency subunit")

/-! ## Time -/

/-- The root unit of time. -/
def second : MeasureUnit := primitive "s" "second" Dimension.time

/-- Sixty seconds. -/
def minute : MeasureUnit := second.scaled "min" "minute" (.ofDigits 60 0)

/-- Sixty minutes. -/
def hour : MeasureUnit := second.scaled "h" "hour" (.ofDigits 3600 0)

/-- Twenty-four hours. -/
def day : MeasureUnit := second.scaled "d" "day" (.ofDigits 86400 0)

/-- The twelfth part of a year, in days. -/
def month : MeasureUnit := day.scaled "mo" "month" (.ofDigits 30436875 6)

/-- The mean year of the civil calendar, in days. -/
def year : MeasureUnit := day.scaled "yr" "year" (.ofDigits 3652425 4)

/-! ## Energy -/

/-- The root unit of energy. -/
def joule : MeasureUnit := primitive "J" "joule" Dimension.energy

/-- A watt over an hour. -/
def wattHour : MeasureUnit := joule.scaled "Wh" "watt hour" (.ofDigits 3600 0)

/-- A thousand watt hours. -/
def kilowattHour : MeasureUnit :=
  wattHour.scaled "kWh" "kilowatt hour" (.ofDigits 1000 0)

/-- A thousand kilowatt hours. -/
def megawattHour : MeasureUnit :=
  kilowattHour.scaled "MWh" "megawatt hour" (.ofDigits 1000 0)

/-- A thousand megawatt hours. -/
def gigawattHour : MeasureUnit :=
  megawattHour.scaled "GWh" "gigawatt hour" (.ofDigits 1000 0)

/-- The units in which energy is sold. -/
def energyUnits : List MeasureUnit :=
  [joule, wattHour, kilowattHour, megawattHour, gigawattHour]

/-- The energy unit with the given symbol, in which case does not matter. -/
def energyNamed (symbol : String) : Measured MeasureUnit :=
  let symbol := String.ofList (Text.trim symbol.toList)
  match energyUnits.find? fun unit => Text.equalIgnoringCase unit.symbol symbol with
  | some unit => .ok unit
  | none => .error (.unknownUnit symbol)

end Tariff.MeasureUnit
