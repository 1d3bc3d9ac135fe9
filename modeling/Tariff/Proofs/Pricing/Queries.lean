import Mathlib.Data.List.TakeWhile
import Tariff.Proofs.Pricing.Tiling

/-!
# Questions about an instant

A schedule answers four questions about an instant: which slot covers it, which
one starts next, which have not ended yet, and whether all have ended.  Each is
answered by its own walk over the slots, or by none; here the answers are shown to
fit together.

## Main statements

* `Tiles.dropWhile_eq_filter` — the slots from the first one that has not ended
  are all that have not ended
* `Tiles.following` — behind the slot that covers an instant comes the next one
* `Schedule.build_queries` — the answers of a schedule fit together
* `Schedule.build_queries_leapHour` — but not about the end of an interval that lies
  in a leap second

## Design notes

All of this rests on slots that follow one another, which those of a schedule
always do, leap seconds or not.  That the last slot ends with the interval is
another matter: slots are laid one behind the other by minutes, which a leap second
at the start or at the end of the interval is not counted in.  Where both lie
outside leap seconds, the interval ends with its slots.
-/

namespace Tariff

/-! ## Questions about slots that follow one another -/

namespace Tiles

variable {start stop : Instant} {slots : List Slot} {slot : Slot} {time : Instant}

/-- Slots that follow one another lie between the first and the last instant. -/
theorem within (h : Tiles stop start slots) (mem : slot ∈ slots) :
    start.upTo slot.start = true ∧ slot.start.upTo slot.stop = true ∧
      slot.stop.upTo stop = true := by
  induction slots generalizing start with
  | nil => cases mem
  | cons first rest ih =>
      obtain ⟨rfl, long, others⟩ := h
      have last := others.upTo
      rcases List.mem_cons.mp mem with rfl | mem
      · refine ⟨?_, long, last⟩
        rw [Instant.upTo_iff]
        omega
      · obtain ⟨low, between, high⟩ := ih others mem
        refine ⟨?_, between, high⟩
        rw [Instant.upTo_iff] at *
        omega

/-- The last of them ends at the last instant. -/
theorem exists_stop (h : Tiles stop start slots) (nonempty : slots ≠ []) :
    ∃ slot ∈ slots, slot.stop = stop := by
  induction slots generalizing start with
  | nil => exact absurd rfl nonempty
  | cons first rest ih =>
      obtain ⟨-, -, others⟩ := h
      rcases eq_or_ne rest [] with rfl | more
      · exact ⟨first, List.mem_cons_self, others⟩
      · obtain ⟨slot, mem, ends⟩ := ih others more
        exact ⟨slot, List.mem_cons_of_mem _ mem, ends⟩

/-- **The slots from the first one that has not ended** are all that have not
ended. -/
theorem dropWhile_eq_filter (h : Tiles stop start slots) (time : Instant) :
    (slots.dropWhile fun slot => slot.stop.upTo time) =
      slots.filter fun slot => time.before slot.stop := by
  induction slots generalizing start with
  | nil => rfl
  | cons first rest ih =>
      obtain ⟨-, -, others⟩ := h
      rcases Bool.eq_false_or_eq_true (time.before first.stop) with ahead | ended
      · rw [List.dropWhile_cons_of_neg (by simp [Instant.upTo, ahead]),
          List.filter_cons_of_pos (by exact ahead), List.filter_eq_self.mpr]
        -- no slot ends before the first one does
        intro slot mem
        obtain ⟨low, between, -⟩ := others.within mem
        simp only [Instant.upTo_iff, Instant.before_iff] at *
        omega
      · rw [List.dropWhile_cons_of_pos (by simp [Instant.upTo, ended]),
          List.filter_cons_of_neg (by simp [ended]), ih others]

/-- Before the first slot none covers an instant, none has ended, and the first one
is the next. -/
theorem ahead (h : Tiles stop start slots) (early : time.before start = true) :
    (slots.find? fun slot => slot.covers time) = none ∧
      (slots.dropWhile fun slot => slot.stop.upTo time) = slots ∧
        (slots.find? fun slot => time.before slot.start) = slots.head? := by
  refine ⟨?_, ?_, ?_⟩
  · rw [List.find?_eq_none]
    intro slot mem
    obtain ⟨low, -, -⟩ := h.within mem
    simp only [Slot.covers, Bool.and_eq_true, Instant.upTo_iff, Instant.before_iff] at *
    omega
  · rw [h.dropWhile_eq_filter, List.filter_eq_self]
    intro slot mem
    obtain ⟨low, between, -⟩ := h.within mem
    simp only [Instant.upTo_iff, Instant.before_iff] at *
    omega
  · cases slots with
    | nil => rfl
    | cons first rest =>
        obtain ⟨rfl, -, -⟩ := h
        rw [List.find?_cons_of_pos (by exact early), List.head?_cons]

/-- **Behind the slot that covers an instant** comes the next one. -/
theorem following (h : Tiles stop start slots)
    (here : (slots.find? fun slot => slot.covers time) = some slot) :
    ∃ rest, (slots.dropWhile fun slot => slot.stop.upTo time) = slot :: rest ∧
      (slots.find? fun slot => time.before slot.start) = rest.head? := by
  induction slots generalizing start with
  | nil => cases here
  | cons first rest ih =>
      obtain ⟨rfl, long, others⟩ := h
      rcases Bool.eq_false_or_eq_true (first.covers time) with covers | misses
      · rw [List.find?_cons_of_pos (by exact covers)] at here
        obtain rfl := Option.some.inj here
        simp only [Slot.covers, Bool.and_eq_true] at covers
        obtain ⟨begun, running⟩ := covers
        refine ⟨rest, List.dropWhile_cons_of_neg (by simp [Instant.upTo, running]), ?_⟩
        rw [List.find?_cons_of_neg (by simpa [Instant.upTo] using begun)]
        exact (others.ahead running).2.2
      · rw [List.find?_cons_of_neg (by simp [misses])] at here
        have covers := List.find?_some here
        obtain ⟨low, between, -⟩ := others.within (List.mem_of_find?_eq_some here)
        simp only [Slot.covers, Bool.and_eq_true] at covers
        obtain ⟨begun, -⟩ := covers
        -- the first slot has ended when a later one has begun
        have ended : first.stop.upTo time = true := by
          rw [Instant.upTo_iff] at *
          omega
        have past : time.before first.start = false := by
          rw [← Bool.not_eq_true, Instant.before_iff]
          rw [Instant.upTo_iff] at *
          omega
        rw [List.dropWhile_cons_of_pos (by exact ended), List.find?_cons_of_neg (by simp [past])]
        exact ih others here

/-- A slot covers an instant when it lies between the first and the last one. -/
theorem exists_covers_iff (h : Tiles stop start slots) :
    (∃ slot, (slots.find? fun slot => slot.covers time) = some slot) ↔
      start.upTo time = true ∧ time.before stop = true := by
  rw [← Option.isSome_iff_exists, List.find?_isSome, ← List.countP_pos_iff, h.countP_covers]
  split <;> simp [*]

/-- All slots have ended when the last one has. -/
theorem dropWhile_eq_nil_iff (h : Tiles stop start slots) (nonempty : slots ≠ []) :
    (slots.dropWhile fun slot => slot.stop.upTo time) = [] ↔ stop.upTo time = true := by
  rw [List.dropWhile_eq_nil_iff]
  constructor
  · intro ended
    obtain ⟨slot, mem, rfl⟩ := h.exists_stop nonempty
    exact ended slot mem
  · intro ended slot mem
    obtain ⟨-, -, high⟩ := h.within mem
    rw [Instant.upTo_iff] at *
    omega

/-- When all slots have ended, none covers an instant and none comes next. -/
theorem ended (h : Tiles stop start slots)
    (all : (slots.dropWhile fun slot => slot.stop.upTo time) = []) :
    (slots.find? fun slot => slot.covers time) = none ∧
      (slots.find? fun slot => time.before slot.start) = none := by
  rw [List.dropWhile_eq_nil_iff] at all
  constructor <;>
  · rw [List.find?_eq_none]
    intro slot mem
    have past := all slot mem
    obtain ⟨-, between, -⟩ := h.within mem
    simp only [Slot.covers, Bool.and_eq_true, Instant.upTo_iff, Instant.before_iff] at *
    omega

end Tiles

/-! ## Slots of a schedule follow one another -/

/-- Some minutes after some minutes. -/
theorem Instant.plusMinutes?_add {t u : Instant} {first : ℕ} (h : t.plusMinutes? first = some u)
    (second : ℕ) : t.plusMinutes? (first + second) = u.plusMinutes? second := by
  rcases Nat.eq_zero_or_pos first with rfl | pos
  · obtain rfl := Option.some.inj h
    rw [Nat.zero_add]
  · rcases Nat.eq_zero_or_pos second with rfl | more
    · exact h
    · rw [plusMinutes?, if_neg pos.ne'] at h
      obtain ⟨seconds, nanos⟩ := ofParts?_eq_some_iff.mp h
      rw [plusMinutes?, plusMinutes?, if_neg (by omega), if_neg more.ne', seconds, nanos,
        Nat.mod_mod, Nat.cast_add, add_mul, add_assoc]

/-- After some minutes it is later. -/
theorem Instant.upTo_plusMinutes? {t u : Instant} {minutes : ℕ} (pos : 0 < minutes)
    (h : t.plusMinutes? minutes = some u) : t.upTo u = true := by
  rw [plusMinutes?, if_neg pos.ne'] at h
  obtain ⟨seconds, -⟩ := ofParts?_eq_some_iff.mp h
  rw [upTo_iff]
  omega

/-- Slots that are laid one behind the other by minutes follow one another. -/
theorem exists_tiles_of_minutes {start : Instant} {minutes : ℕ} (pos : 0 < minutes)
    {slots : List Slot}
    (places : ∀ k slot, slots[k]? = some slot →
      start.plusMinutes? (k * minutes) = some slot.start ∧
        slot.start.plusMinutes? minutes = some slot.stop) :
    ∃ stop, Tiles stop start slots := by
  induction slots generalizing start with
  | nil => exact ⟨start, rfl⟩
  | cons slot rest ih =>
      obtain ⟨first, last⟩ := places 0 slot rfl
      rw [Nat.zero_mul] at first
      obtain rfl := Option.some.inj first
      -- the places of the rest are counted from the end of the first slot
      obtain ⟨stop, others⟩ := @ih slot.stop fun k other here => by
        obtain ⟨otherFirst, otherLast⟩ := places (k + 1) other here
        rw [Nat.succ_mul, Nat.add_comm, Instant.plusMinutes?_add last] at otherFirst
        exact ⟨otherFirst, otherLast⟩
      exact ⟨stop, rfl, Instant.upTo_plusMinutes? pos last, others⟩

namespace Schedule

variable {c : Contract} {s : Publication} {schedule : Schedule}

/-- The slots of a schedule follow one another. -/
theorem Built.exists_tiles (built : Built c s schedule) :
    ∃ stop, Tiles stop s.start schedule.slots := by
  refine exists_tiles_of_minutes s.slotLength.minutes_pos ?_
  intro k slot here
  obtain ⟨point, -, position, slotFor⟩ := built.exists_point here
  have starts := slotFor.starts
  rw [position, Publication.slotStart?] at starts
  split at starts
  · exact ⟨starts, slotFor.stops⟩
  · cases starts

/-! ## Answers of a schedule -/

/-- There is a current slot where one covers the instant. -/
theorem current_eq_ok {time : Instant} {slot : Slot} :
    schedule.current time = .ok slot ↔
      (schedule.slots.find? fun slot => slot.covers time) = some slot := by
  rw [current]
  split <;> simp [*]

/-- There is no current slot where none covers the instant. -/
theorem current_of_none {time : Instant}
    (h : (schedule.slots.find? fun slot => slot.covers time) = none) :
    schedule.current time = .error (.notFound time) := by
  rw [current, h]

/-- **The answers of a schedule fit together.**  Upcoming are all slots that have
not ended.  The current one is the first of these and the next one the second.
Before the start there is no current slot and the first one is the next.  When no
slot is upcoming, there is neither a current nor a next one.  Outside leap seconds
there is a current slot in the whole interval, and the schedule expires when no
slot is upcoming. -/
theorem build_queries (h : build c s = .ok schedule) (time : Instant) :
    schedule.upcoming time = schedule.slots.filter (fun slot => time.before slot.stop) ∧
    (∀ slot, schedule.current time = .ok slot →
      ∃ rest, schedule.upcoming time = slot :: rest ∧ schedule.next? time = rest.head?) ∧
    (time.before schedule.start = true →
      schedule.current time = .error (.notFound time) ∧
        schedule.upcoming time = schedule.slots ∧
          ∃ first, schedule.slots.head? = some first ∧ schedule.next? time = some first) ∧
    (schedule.upcoming time = [] →
      schedule.current time = .error (.notFound time) ∧ schedule.next? time = none) ∧
    (schedule.start.isLeap = false → schedule.stop.isLeap = false →
      ((∃ slot, schedule.current time = .ok slot) ↔
        schedule.start.upTo time = true ∧ time.before schedule.stop = true) ∧
      (schedule.isExpired time = true ↔ schedule.upcoming time = [])) := by
  have built := built_of_build h
  have nonempty := built.slots_ne_nil
  obtain ⟨last, tiles⟩ := built.exists_tiles
  obtain ⟨start, stop⟩ := built.span
  rw [start, stop]
  refine ⟨tiles.dropWhile_eq_filter time, ?_, ?_, ?_, ?_⟩
  · intro slot here
    exact tiles.following (current_eq_ok.mp here)
  · intro early
    obtain ⟨none, all, next⟩ := tiles.ahead early
    obtain ⟨first, rest, slots⟩ := List.exists_cons_of_ne_nil nonempty
    rw [slots, List.head?_cons, ← slots] at next
    exact ⟨current_of_none none, all, first, by rw [slots, List.head?_cons], next⟩
  · intro passed
    obtain ⟨none, next⟩ := tiles.ended passed
    exact ⟨current_of_none none, next⟩
  · intro startLeap stopLeap
    -- here the last slot ends with the interval
    have tiles : Tiles s.stop s.start schedule.slots :=
      tiles_of_nanos stopLeap startLeap (fun _ _ here => built.nanos_slot startLeap here)
        (built.nanos_stop startLeap stopLeap)
    constructor
    · simp only [current_eq_ok]
      exact tiles.exists_covers_iff
    · rw [isExpired, stop]
      exact (tiles.dropWhile_eq_nil_iff nonempty).symm

/-- Three hours begin with a slot, and at their end there is none left. -/
theorem build_queries_threeHours : ∃ schedule,
    build .twoRates .threeHours = .ok schedule ∧
      (∃ slot rest, schedule.current Publication.threeHours.start = .ok slot ∧
        schedule.upcoming Publication.threeHours.start = slot :: rest ∧
          schedule.next? Publication.threeHours.start = rest.head?) ∧
      schedule.isExpired Publication.threeHours.stop = true ∧
        schedule.upcoming Publication.threeHours.stop = [] ∧
          schedule.current Publication.threeHours.stop =
            .error (.notFound Publication.threeHours.stop) := by
  obtain ⟨schedule, h⟩ := exists_threeHours
  obtain ⟨start, stop⟩ := (built_of_build h).span
  obtain ⟨-, current, -, -, atStart⟩ := build_queries h Publication.threeHours.start
  obtain ⟨-, -, -, none, atStop⟩ := build_queries h Publication.threeHours.stop
  rw [start, stop] at atStart atStop
  obtain ⟨slot, here⟩ := (atStart (by decide) (by decide)).1.mpr (by decide)
  obtain ⟨rest, upcoming, next⟩ := current slot here
  have expired : schedule.isExpired Publication.threeHours.stop = true := by
    rw [isExpired, stop]
    decide
  have passed := (atStop (by decide) (by decide)).2.mp expired
  exact ⟨schedule, h, ⟨slot, rest, here, upcoming, next⟩, expired, passed, (none passed).1⟩

end Schedule

/-- The last hour of a year, at the end of which stands a leap second. -/
def Publication.leapHour : Publication :=
  { Publication.threeHours with
    start := ⟨1672527600, 0, by decide, by decide, Publication.threeHours.start.nano_lt⟩
    stop := ⟨1672531199, 1000000000, by decide, by decide, by decide⟩
    points := [⟨1, .ofDigits 10 0⟩] }

/-- **The hour goes on beyond its end**, when the schedule has expired. -/
theorem Schedule.build_queries_leapHour : ∃ schedule,
    build .default .leapHour = .ok schedule ∧
      schedule.stop = Publication.leapHour.stop ∧ schedule.isExpired schedule.stop = true ∧
        (∃ slot, schedule.current schedule.stop = .ok slot) ∧
          schedule.upcoming schedule.stop ≠ [] := by
  have facts : (build .default .leapHour).toOption.map (fun schedule =>
      (schedule.stop, schedule.isExpired schedule.stop,
        (schedule.current schedule.stop).isOk, (schedule.upcoming schedule.stop).isEmpty)) =
      some (Publication.leapHour.stop, true, true, false) := by
    decide +kernel
  cases h : build .default .leapHour with
  | error fault =>
      rw [h] at facts
      cases facts
  | ok schedule =>
      rw [h] at facts
      simp only [Except.toOption, Option.map_some, Option.some.injEq, Prod.mk.injEq] at facts
      obtain ⟨stop, expired, current, upcoming⟩ := facts
      refine ⟨schedule, rfl, stop, expired, ?_, by simpa using upcoming⟩
      cases here : schedule.current schedule.stop with
      | error fault =>
          rw [here] at current
          cases current
      | ok slot => exact ⟨slot, rfl⟩

end Tariff
