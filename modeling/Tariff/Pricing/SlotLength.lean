import Tariff.Pricing.Error
import Tariff.Text.Cut

/-!
# Lengths of slots

Prices are published for slots of equal length, a whole number of minutes.

## Main definitions

* `SlotLength` — a positive number of minutes
* `SlotLength.text`, `SlotLength.read` — the written form, such as `PT15M` or `P1D`
* `SlotLength.Scan`, `Scan.step?`, `Scan.run?` — a scan of the groups, by a character or a text
* `SlotLength.scanMinutes?`, `SlotLength.scanChars?` — the minutes of a duration and the length of
  a slot, read in one pass

## Design notes

The written form is that of a duration: a `P`, days, and behind a `T` hours and minutes.  Days are
written only for whole days and hours never, but readers take them in this order, each at most once.

The reader goes from group to group with numbers of any size.  A scan goes from character to
character: it keeps the digits of the number it is in, the groups that may still come, and the
minutes so far, and gives up as soon as a number, the minutes of a group or their sum have more
than 32 bits.
-/

namespace Tariff

/-- The length of a slot. -/
structure SlotLength where
  /-- The number of minutes. -/
  minutes : Nat
  /-- A slot has some length. -/
  minutes_pos : 0 < minutes := by decide
  /-- The number of minutes has at most 32 bits. -/
  minutes_le : minutes ≤ 4294967295 := by decide
deriving DecidableEq

namespace SlotLength

/-- The length of a number of minutes. -/
def ofMinutes? (minutes : Nat) : Option SlotLength :=
  if h : 0 < minutes ∧ minutes ≤ 4294967295 then some ⟨minutes, h.1, h.2⟩ else none

/-- The length of a number of minutes, or the error that it is none. -/
def ofMinutes (minutes : Nat) : Priced SlotLength :=
  match ofMinutes? minutes with
  | some length => .ok length
  | none => .error (.invalidSeries "resolution must be positive")

/-- The number of minutes of a day. -/
def minutesPerDay : Nat := 1440

/-- The length in nanoseconds. -/
def nanos (length : SlotLength) : Nat := length.minutes * nanosPerMinute

/-- **Written form.** -/
def text (length : SlotLength) : String :=
  if length.minutes % minutesPerDay = 0 then
    "P" ++ String.ofList (Text.digits (length.minutes / minutesPerDay)) ++ "D"
  else
    "PT" ++ String.ofList (Text.digits length.minutes) ++ "M"

/-- A group of digits at the start of a text that ends in the given designator, as a number of
minutes, and the text behind it.  Without such a group the number is zero. -/
def readGroup? (designator : Char) (unit : Nat) (text : List Char) : Option (Nat × List Char) :=
  match text.dropWhile Text.isDigit with
  | [] => some (0, text)
  | c :: rest =>
    if c = designator then
      (Text.readNat? (text.takeWhile Text.isDigit)).map fun n => (n * unit, rest)
    else
      some (0, text)

/-- The minutes of the groups of a text, one for each designator and in their order.  All of the
text must belong to a group. -/
def readGroups? : List (Char × Nat) → List Char → Option Nat
  | [], [] => some 0
  | [], _ :: _ => none
  | (designator, unit) :: others, text => do
    let (minutes, rest) ← readGroup? designator unit text
    let more ← readGroups? others rest
    return minutes + more

/-- The days of a duration. -/
def dayGroups : List (Char × Nat) := [('D', minutesPerDay)]

/-- The hours and minutes of a duration. -/
def timeGroups : List (Char × Nat) := [('H', 60), ('M', 1)]

/-- The minutes of a duration behind its `P`. -/
def readMinutes? (text : List Char) : Option Nat :=
  match Text.cutAt (· == 'T') text with
  | (days, none) => readGroups? dayGroups days
  | (_, some []) => none
  | (days, some time) => do
    let whole ← readGroups? dayGroups days
    let part ← readGroups? timeGroups time
    return whole + part

/-- A length from its characters. -/
def readChars? (text : List Char) : Option SlotLength :=
  match Text.trim text with
  | 'P' :: rest => (readMinutes? rest).bind ofMinutes?
  | _ => none

/-- **Reading.**  The length that a text denotes. -/
def read (text : String) : Priced SlotLength :=
  match readChars? text.toList with
  | some length => .ok length
  | none => .error (.invalidSeries ("unsupported resolution: " ++ text))

/-! ### Reading in one pass -/

/-- A number that has at most 32 bits. -/
def inWord? (n : Nat) : Option Nat :=
  if n ≤ 4294967295 then some n else none

/-- The minutes with those of another group, as long as its number, its minutes and the sum have at
most 32 bits. -/
def add? (minutes unit : Nat) (run : List Char) : Option Nat := do
  let number ← (Text.readNat? run).bind inWord?
  let scaled ← inWord? (number * unit)
  inWord? (minutes + scaled)

/-- **A scan** between two characters. -/
structure Scan where
  /-- The digits since the last designator. -/
  run : List Char
  /-- The groups that may still come. -/
  ahead : List (Char × Nat)
  /-- The minutes of the groups so far. -/
  minutes : Nat

namespace Scan

/-- **One character.**  A designator ends the group of the digits in front of it, and leaves the
groups behind its own. -/
def step? (s : Scan) (c : Char) : Option Scan :=
  if Text.isDigit c then some { s with run := s.run ++ [c] }
  else
    match s.ahead.dropWhile (·.1 != c) with
    | [] => none
    | (_, unit) :: ahead => (add? s.minutes unit s.run).map fun minutes => ⟨[], ahead, minutes⟩

/-- The minutes at the end of a text, which has no digits behind its last designator. -/
def end? (s : Scan) : Option Nat :=
  if s.run = [] then some s.minutes else none

/-- **A text**, character by character. -/
def run? (s : Scan) : List Char → Option Nat
  | [] => s.end?
  | c :: text => (s.step? c).bind fun s' => s'.run? text

end Scan

/-- The minutes of a duration behind its `P`, in one pass over the days and one over the time. -/
def scanMinutes? (text : List Char) : Option Nat :=
  match Text.cutAt (· == 'T') text with
  | (days, none) => Scan.run? ⟨[], dayGroups, 0⟩ days
  | (_, some []) => none
  | (days, some time) => do
    let whole ← Scan.run? ⟨[], dayGroups, 0⟩ days
    Scan.run? ⟨[], timeGroups, whole⟩ time

/-- A length from its characters, in one pass. -/
def scanChars? (text : List Char) : Option SlotLength :=
  match Text.trim text with
  | 'P' :: rest => (scanMinutes? rest).bind ofMinutes?
  | _ => none

example : (ofMinutes? 1440).map text = some "P1D" ∧ (ofMinutes? 90).map text = some "PT90M" := by
  decide

example : readChars? "P1DT2H".toList = ofMinutes? 1560 := by decide

end SlotLength

end Tariff
