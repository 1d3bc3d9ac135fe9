import Mathlib.Data.List.Induction
import Tariff.Pricing.Board
import Tariff.Proofs.Pricing.Queries

/-!
# Boards over time

A board is changed again and again.  It is refreshed, with success or without, it is given
schedules that were built elsewhere, and it is cleared.  What it shows after a run of changes
depends on the last of them that did not fail.

## Main definitions

* `Board.Change`, `Board.Answer` — what is done to a board, and what it answers
* `Board.change`, `Board.run` — one change, and a run of changes
* `Board.Step` — what each change does to the schedule in use
* `Board.after`, `Board.shown` — the board after a run on an empty one, and its schedule

## Main statements

* `Board.step_change` — one change is a step
* `Board.shown_eq_some_iff` — the schedule in use is the last that was put up
* `Schedule.exists_stop_covers` — a schedule has a price from its start to the end of its
  last slot
* `Board.run_shows` — what a board shows, answers and asks for during a run
* `Board.run_shows_leapHour` — a board that does not ask for another schedule when the
  interval of its own is over

## Design notes

Every beginning of a run is itself a run, so that what is said of the board after a run holds
at each point of it.  A failed refresh is the only change that leaves the schedule in use
where it is; all others put one up or take it down.
-/

namespace Tariff

/-! ## The end of the last slot -/

/-- Of slots that follow one another the last ends at the last instant. -/
theorem Tiles.stop_of_getLast? {start stop : Instant} {slots : List Slot} {slot : Slot}
    (h : Tiles stop start slots) (last : slots.getLast? = some slot) : slot.stop = stop := by
  induction slots generalizing start with
  | nil => cases last
  | cons first rest ih =>
      obtain ⟨-, -, others⟩ := h
      rcases eq_or_ne rest [] with rfl | more
      · obtain rfl := Option.some.inj last
        exact others
      · rw [List.getLast?_cons_of_ne_nil more] at last
        exact ih others last

namespace Schedule

variable {c : Contract} {s : Publication} {schedule : Schedule}

/-- **A schedule has a price** from the start of its publication to the end of its last slot,
which outside leap seconds is the end of the publication. -/
theorem exists_stop_covers (h : build c s = .ok schedule) : ∃ last,
    schedule.slots.getLast? = some last ∧
      (s.start.isLeap = false → s.stop.isLeap = false → last.stop = s.stop) ∧
        ∀ time, (∃ slot, schedule.current time = .ok slot) ↔
          s.start.upTo time = true ∧ time.before last.stop = true := by
  have built := built_of_build h
  have found := List.getLast?_eq_some_getLast built.slots_ne_nil
  obtain ⟨stop, tiles⟩ := built.exists_tiles
  refine ⟨_, found, ?_, ?_⟩
  · intro startLeap stopLeap
    have tiles : Tiles s.stop s.start schedule.slots :=
      tiles_of_nanos stopLeap startLeap (fun _ _ here => built.nanos_slot startLeap here)
        (built.nanos_stop startLeap stopLeap)
    exact tiles.stop_of_getLast? found
  · intro time
    rw [tiles.stop_of_getLast? found]
    simp only [current_eq_ok]
    exact tiles.exists_covers_iff

/-- Where there is no current slot, it is said at which instant. -/
theorem current_eq_error {time : Instant} {e : PricingError} (h : schedule.current time = .error e) :
    e = .notFound time := by
  unfold current at h
  split at h
  · cases h
  · exact (Except.error.inj h).symm

end Schedule

namespace Board

/-! ## Changes -/

/-- What is done to a board. -/
inductive Change where
  /-- It is refreshed from a contract and a publication. -/
  | refresh (c : Contract) (s : Publication)
  /-- Another schedule is put up. -/
  | replace (schedule : Schedule)
  /-- The schedule is taken down. -/
  | clear

/-- What a board answers to a change. -/
inductive Answer where
  /-- The schedule that was built, or why there is none. -/
  | built (result : Priced Schedule)
  /-- The schedule that was in use before. -/
  | before (schedule : Option Schedule)

/-- **A change** of a board, with its answer. -/
def change (board : Board) : Change → Answer × Board
  | .refresh c s => (board.refresh c s).map .built id
  | .replace schedule => (board.replace schedule).map .before id
  | .clear => board.clear.map .before id

/-- **A run of changes**, with their answers. -/
def run (board : Board) : List Change → List Answer × Board
  | [] => ([], board)
  | change :: rest =>
    let step := board.change change
    let others := step.2.run rest
    (step.1 :: others.1, others.2)

/-- The board after a run of changes of an empty one. -/
def after (changes : List Change) : Board := (empty.run changes).2

/-- The schedule in use after such a run. -/
def shown (changes : List Change) : Option Schedule := (after changes).schedule

/-- **A step**: what was in use before a change, the answer to the change, and what is in use
then. -/
inductive Step : Option Schedule → Change → Answer → Option Schedule → Prop
  /-- A schedule that can be built is the answer, and is in use then. -/
  | refreshed {before : Option Schedule} {c : Contract} {s : Publication} {schedule : Schedule}
      (success : Schedule.build c s = .ok schedule) :
      Step before (.refresh c s) (.built (.ok schedule)) (some schedule)
  /-- Where none can be built, the answer is why, and nothing else happens. -/
  | failed {before : Option Schedule} {c : Contract} {s : Publication} {e : PricingError}
      (failure : Schedule.build c s = .error e) :
      Step before (.refresh c s) (.built (.error e)) before
  /-- What was in use before a replacement is the answer. -/
  | replaced {before : Option Schedule} {schedule : Schedule} :
      Step before (.replace schedule) (.before before) (some schedule)
  /-- What was in use before it was taken down is the answer. -/
  | cleared {before : Option Schedule} : Step before .clear (.before before) none

namespace Change

/-- A change that puts up a schedule. -/
inductive PutsUp (schedule : Schedule) : Change → Prop
  | refresh {c : Contract} {s : Publication} (success : Schedule.build c s = .ok schedule) :
      PutsUp schedule (.refresh c s)
  | replace : PutsUp schedule (.replace schedule)

/-- A refresh that fails. -/
inductive Fails : Change → Prop
  | refresh {c : Contract} {s : Publication} {e : PricingError}
      (failure : Schedule.build c s = .error e) : Fails (.refresh c s)

end Change

variable {board : Board} {changes : List Change} {change : Change} {schedule : Schedule}
  {before next : Option Schedule} {answer : Answer}

/-- **One change is a step.** -/
theorem step_change (board : Board) (change : Change) :
    Step board.schedule change (board.change change).1 (board.change change).2.schedule := by
  cases change with
  | refresh c s =>
      cases h : Schedule.build c s with
      | ok schedule => simpa [Board.change, refresh, replace, h] using Step.refreshed h
      | error e => simpa [Board.change, refresh, h] using Step.failed h
  | replace schedule => exact .replaced
  | clear => exact .cleared

/-- After a step a schedule is in use when the step has put it up, or when the step has failed
and it was in use before. -/
theorem Step.eq_some_iff (step : Step before change answer next) :
    next = some schedule ↔
      change.PutsUp schedule ∨ change.Fails ∧ before = some schedule := by
  cases step with
  | refreshed success =>
      constructor
      · intro same
        obtain rfl := Option.some.inj same
        exact .inl (.refresh success)
      · rintro (putsUp | ⟨fails, -⟩)
        · cases putsUp with
          | refresh other => rw [Except.ok.inj (success.symm.trans other)]
        · cases fails with
          | refresh failure => cases success.symm.trans failure
  | failed failure =>
      constructor
      · exact fun same => .inr ⟨.refresh failure, same⟩
      · rintro (putsUp | ⟨-, same⟩)
        · cases putsUp with
          | refresh success => cases failure.symm.trans success
        · exact same
  | replaced =>
      constructor
      · intro same
        obtain rfl := Option.some.inj same
        exact .inl .replace
      · rintro (putsUp | ⟨fails, -⟩)
        · cases putsUp
          rfl
        · cases fails
  | cleared =>
      constructor
      · intro same
        cases same
      · rintro (putsUp | ⟨fails, -⟩)
        · cases putsUp
        · cases fails

/-! ## Runs -/

/-- A run of one change more. -/
theorem run_concat (board : Board) (changes : List Change) (last : Change) :
    board.run (changes ++ [last]) =
      ((board.run changes).1 ++ [((board.run changes).2.change last).1],
        ((board.run changes).2.change last).2) := by
  induction changes generalizing board with
  | nil => rfl
  | cons first rest ih =>
      rw [List.cons_append, run, run, ih]
      rfl

/-- The last change of a run is a step from what is in use before it. -/
theorem step_concat (changes : List Change) (last : Change) :
    Step (shown changes) last ((after changes).change last).1 (shown (changes ++ [last])) := by
  have step := step_change (after changes) last
  have next : after (changes ++ [last]) = ((after changes).change last).2 :=
    congrArg Prod.snd (run_concat empty changes last)
  rw [shown, shown, next]
  exact step

theorem length_answers (changes : List Change) : (empty.run changes).1.length = changes.length := by
  induction changes using List.reverseRecOn with
  | nil => rfl
  | append_singleton changes last ih => rw [run_concat, List.length_append, List.length_append, ih]; rfl

/-- **Each change of a run is a step**, from what the changes before it have left. -/
theorem exists_step {k : ℕ} (here : changes[k]? = some change) : ∃ answer,
    (empty.run changes).1[k]? = some answer ∧
      Step (shown (changes.take k)) change answer (shown (changes.take (k + 1))) := by
  induction changes using List.reverseRecOn with
  | nil => cases here
  | append_singleton changes last ih =>
      rw [run_concat]
      rcases lt_trichotomy k changes.length with earlier | rfl | later
      · rw [List.getElem?_append_left earlier] at here
        rw [List.getElem?_append_left (by rwa [length_answers]),
          List.take_append_of_le_length earlier.le, List.take_append_of_le_length earlier]
        exact ih here
      · rw [List.getElem?_concat_length] at here
        obtain rfl := Option.some.inj here
        rw [← length_answers, List.getElem?_concat_length, length_answers, List.take_left,
          List.take_of_length_le (by simp)]
        exact ⟨_, rfl, step_concat changes last⟩
      · rw [List.getElem?_eq_none (by rw [List.length_append]; exact later)] at here
        cases here

/-- **The schedule in use** is the last that was put up, if only failed attempts to refresh have
come after it. -/
theorem shown_eq_some_iff : shown changes = some schedule ↔
    ∃ earlier change later, changes = earlier ++ change :: later ∧ change.PutsUp schedule ∧
      ∀ other ∈ later, other.Fails := by
  induction changes using List.reverseRecOn with
  | nil =>
      constructor
      · intro nothing
        cases nothing
      · rintro ⟨earlier, change, later, empty, -⟩
        cases List.append_ne_nil_of_right_ne_nil _ (List.cons_ne_nil _ _) empty.symm
  | append_singleton changes last ih =>
      rw [(step_concat changes last).eq_some_iff, ih]
      constructor
      · rintro (putsUp | ⟨fails, earlier, change, later, rfl, putsUp, others⟩)
        · exact ⟨changes, last, [], rfl, putsUp, by simp⟩
        · refine ⟨earlier, change, later ++ [last], by simp, putsUp, ?_⟩
          intro other mem
          rcases List.mem_append.mp mem with mem | mem
          · exact others other mem
          · rwa [List.mem_singleton.mp mem]
      · rintro ⟨earlier, change, later, split, putsUp, others⟩
        -- the change that puts up the schedule is the last one, or a failure is
        rcases List.eq_nil_or_concat' later with rfl | ⟨later, other, rfl⟩
        · obtain ⟨-, same⟩ := List.append_inj' split rfl
          obtain rfl := List.singleton_inj.mp same
          exact .inl putsUp
        · rw [← List.cons_append, ← List.append_assoc] at split
          obtain ⟨rfl, same⟩ := List.append_inj' split rfl
          obtain rfl := List.singleton_inj.mp same
          exact .inr ⟨others _ (by simp), earlier, change, later, rfl, putsUp,
            fun failed mem => others failed (List.mem_append_left _ mem)⟩

/-- A schedule in use was built, if those were that were put up. -/
theorem exists_build (built : ∀ schedule, .replace schedule ∈ changes →
    ∃ c s, Schedule.build c s = .ok schedule) (h : shown changes = some schedule) :
    ∃ c s, Schedule.build c s = .ok schedule := by
  obtain ⟨earlier, change, later, rfl, ⟨success⟩ | -, -⟩ := shown_eq_some_iff.mp h
  · exact ⟨_, _, success⟩
  · exact built schedule (by simp)

/-! ## Prices of a board -/

/-- With a schedule in use a board needs to be refreshed when the schedule has no price. -/
theorem needsRefresh_iff_of_schedule {time : Instant} (use : board.schedule = some schedule) :
    board.needsRefresh time = true ↔ ¬ ∃ slot, schedule.current time = .ok slot := by
  rw [needsRefresh, use]
  cases h : schedule.current time <;> simp [Except.isOk, Except.toBool, h]

/-- **A board needs to be refreshed** exactly when it has no price, and then it says so. -/
theorem needsRefresh_iff {time : Instant} :
    board.needsRefresh time = true ↔ board.current time = .error (.notFound time) := by
  rw [needsRefresh, current]
  cases board.schedule with
  | none => simp
  | some schedule =>
      cases h : schedule.current time with
      | ok slot => simp [Except.isOk, Except.toBool, h]
      | error e => simp [Except.isOk, Except.toBool, h, Schedule.current_eq_error h]

/-- **What a board shows, answers and asks for.**  After any run of changes the schedule in use
is the last that was put up, unless it was taken down or only failed attempts have come after it.
Each change answers what it should.  The board needs to be refreshed exactly when it has no price.
It has none without a schedule; with one it has a price from the start of its publication to the
end of the last slot, which outside leap seconds is the end of the publication. -/
theorem run_shows (built : ∀ schedule, .replace schedule ∈ changes →
    ∃ c s, Schedule.build c s = .ok schedule) :
    (∀ schedule, shown changes = some schedule ↔
      ∃ earlier change later, changes = earlier ++ change :: later ∧ change.PutsUp schedule ∧
        ∀ other ∈ later, other.Fails) ∧
    (∀ k change, changes[k]? = some change → ∃ answer,
      (empty.run changes).1[k]? = some answer ∧
        Step (shown (changes.take k)) change answer (shown (changes.take (k + 1)))) ∧
    ∀ time,
      ((after changes).needsRefresh time = true ↔
        (after changes).current time = .error (.notFound time)) ∧
      (shown changes = none → (after changes).needsRefresh time = true) ∧
      ∀ schedule, shown changes = some schedule →
        (∃ c s, Schedule.build c s = .ok schedule) ∧
        ∀ c s, Schedule.build c s = .ok schedule → ∃ last,
          schedule.slots.getLast? = some last ∧
            (s.start.isLeap = false → s.stop.isLeap = false → last.stop = s.stop) ∧
              ((after changes).needsRefresh time = true ↔
                ¬ (s.start.upTo time = true ∧ time.before last.stop = true)) := by
  refine ⟨fun _ => shown_eq_some_iff, fun _ _ => exists_step, fun time => ⟨needsRefresh_iff, ?_, ?_⟩⟩
  · intro nothing
    rw [needsRefresh, show (after changes).schedule = none from nothing]
  · intro schedule use
    refine ⟨exists_build built use, fun c s h => ?_⟩
    obtain ⟨last, found, outside, covers⟩ := Schedule.exists_stop_covers h
    refine ⟨last, found, outside, ?_⟩
    rw [← covers time]
    exact needsRefresh_iff_of_schedule use

/-- Three hours for which no prices were published. -/
def unpublished : Publication :=
  { Publication.threeHours with points := [] }

/-- Three hours that are put up, taken down and built anew stay when another attempt fails, and
are over at their end. -/
theorem run_shows_threeHours : ∃ schedule, Schedule.build .twoRates .threeHours = .ok schedule ∧
    ∃ changes : List Change,
      changes = [.replace schedule, .clear, .refresh .twoRates .threeHours,
        .refresh .default unpublished] ∧
      shown changes = some schedule ∧
      (after changes).needsRefresh Publication.threeHours.start = false ∧
      (after changes).current Publication.threeHours.stop =
        .error (.notFound Publication.threeHours.stop) := by
  obtain ⟨schedule, h⟩ := Schedule.exists_threeHours
  refine ⟨schedule, h, _, rfl, ?_⟩
  have failure : Schedule.build .default unpublished =
      .error (.invalidSeries "series has no points") := rfl
  have built : ∀ other, .replace other ∈ [.replace schedule, .clear,
      .refresh .twoRates .threeHours, Change.refresh .default unpublished] →
        ∃ c s, Schedule.build c s = .ok other := by
    intro other mem
    simp only [List.mem_cons, Change.replace.injEq, List.not_mem_nil, or_false, reduceCtorEq] at mem
    exact ⟨_, _, mem ▸ h⟩
  obtain ⟨shows, -, asks⟩ := run_shows built
  have use := (shows schedule).mpr ⟨[.replace schedule, .clear], _, [.refresh .default unpublished],
    rfl, .refresh h, by simpa using .refresh failure⟩
  have answers := fun time => ((asks time).2.2 schedule use).2 _ _ h
  refine ⟨use, ?_, ?_⟩
  · obtain ⟨last, -, stop, asksFor⟩ := answers Publication.threeHours.start
    rw [stop (by decide) (by decide)] at asksFor
    rw [← Bool.not_eq_true, asksFor]
    decide
  · obtain ⟨last, -, stop, asksFor⟩ := answers Publication.threeHours.stop
    rw [stop (by decide) (by decide)] at asksFor
    rw [← (asks _).1, asksFor]
    decide

/-- **A board that does not ask** for another schedule when the interval of its own is over. -/
theorem run_shows_leapHour :
    (∃ schedule, shown [.refresh .default .leapHour] = some schedule ∧
      Schedule.build .default .leapHour = .ok schedule) ∧
    Publication.leapHour.stop.before Publication.leapHour.stop = false ∧
      (after [.refresh .default .leapHour]).needsRefresh Publication.leapHour.stop = false := by
  have facts : (shown [.refresh .default .leapHour]).isSome = true ∧
      (after [.refresh .default .leapHour]).needsRefresh Publication.leapHour.stop = false := by
    decide +kernel
  obtain ⟨schedule, use⟩ := Option.isSome_iff_exists.mp facts.1
  refine ⟨⟨schedule, use, ?_⟩, by decide, facts.2⟩
  -- an empty board shows what this change has built
  have step := step_concat [] (.refresh .default .leapHour)
  rcases step.eq_some_iff.mp use with putsUp | ⟨-, nothing⟩
  · cases putsUp with
    | refresh success => exact success
  · cases nothing

end Board

end Tariff
