import Tariff.Pricing.Schedule

/-!
# Boards

A board shows the schedule in use, if there is one.

## Main definitions

* `Board` — the schedule in use
* `Board.refresh` — a new schedule from a contract and a publication
* `Board.replace`, `Board.clear` — another schedule in its place, or none
* `Board.current`, `Board.needsRefresh` — questions to the schedule in use

## Design notes

An attempt to refresh that fails leaves the schedule in use where it is.  What was in use before a
change is part of the answer to the change.
-/

namespace Tariff

/-- The schedule in use. -/
structure Board where
  /-- The schedule, if one has been put up. -/
  schedule : Option Schedule

namespace Board

/-- A board without a schedule. -/
def empty : Board := ⟨none⟩

/-- Another schedule put up; the answer is what was in use before. -/
def replace (board : Board) (schedule : Schedule) : Option Schedule × Board :=
  (board.schedule, ⟨some schedule⟩)

/-- The schedule taken down; the answer is what was in use before. -/
def clear (board : Board) : Option Schedule × Board :=
  (board.schedule, empty)

/-- **Refreshing.**  The schedule of a publication is put up and is the answer; where it cannot be
built, the answer is why, and the board stays as it is. -/
def refresh (board : Board) (c : Contract) (s : Publication) : Priced Schedule × Board :=
  match Schedule.build c s with
  | .ok schedule => (.ok schedule, (board.replace schedule).2)
  | .error e => (.error e, board)

/-- The slot of the schedule in use that covers an instant. -/
def current (board : Board) (time : Instant) : Priced Slot :=
  match board.schedule with
  | some schedule => schedule.current time
  | none => .error (.notFound time)

/-- Whether no schedule in use covers an instant. -/
def needsRefresh (board : Board) (time : Instant) : Bool :=
  match board.schedule with
  | some schedule => !(schedule.current time).isOk
  | none => true

end Board

end Tariff
