import Tariff.Measure.Error
import Tariff.Time.Notation

/-!
# Errors of pricing

## Main definitions

* `PricingError` — why a price cannot be given
* `PricingError.message` — the wording of each error
* `PricingError.isRecoverable` — errors that other data or a later attempt can mend

## Design notes

All errors but the last are handed on to whoever asked for a price.  The last one stands for the end
of the whole run, which nobody is told about; as an error it takes part in the order of the steps
like the others.
-/

namespace Tariff

/-- Why a price cannot be given. -/
inductive PricingError where
  /-- Something is wrong with a measure. -/
  | measure (error : MeasureError)
  /-- A price is in another currency than expected. -/
  | currencyMismatch (expected found : String)
  /-- No slot covers an instant. -/
  | notFound (time : Instant)
  /-- A rate of tax that is negative or no plain number. -/
  | invalidRate (reason : String)
  /-- A publication contradicts itself. -/
  | invalidSeries (reason : String)
  /-- A contract cannot be applied. -/
  | invalidContract (reason : String)
  /-- Something that was taken for granted does not hold. -/
  | internal (reason : String)
  /-- The calculation breaks off and hands on no error of its own: a time that it takes for granted
  lies behind the calendar. -/
  | brokenOff
deriving DecidableEq

namespace PricingError

/-- What is said about an error. -/
def message : PricingError → String
  | measure error => error.message
  | currencyMismatch expected found =>
    "currency mismatch: expected " ++ expected ++ ", found " ++ found
  | notFound time => "no price available at " ++ time.spokenUtc
  | invalidRate reason => "invalid VAT rate: " ++ reason
  | invalidSeries reason => "invalid series: " ++ reason
  | invalidContract reason => "invalid configuration: " ++ reason
  | internal reason => "internal error: " ++ reason
  | brokenOff => "`DateTime + TimeDelta` overflowed"

/-- Whether other data or a later attempt may help. -/
def isRecoverable : PricingError → Bool
  | currencyMismatch _ _ => true
  | notFound _ => true
  | _ => false

end PricingError

/-- A result, or why there is none. -/
abbrev Priced (α : Type) := Except PricingError α

/-- A measured result as a step of pricing. -/
def Priced.ofMeasured {α : Type} : Measured α → Priced α
  | .ok a => .ok a
  | .error e => .error (.measure e)

end Tariff
