import Tariff.Proofs.Pricing.Course
import Tariff.Proofs.Time.Instant

/-!
# Slots tile the interval

The slots of a schedule follow one another without a gap from the start of the
interval to its end, so that each instant of the interval lies in just one slot.

## Main definitions

* `Tiles` — slots that follow one another from one instant to another

## Main statements

* `Tiles.countP_covers` — each instant in between lies in one slot
* `Schedule.build_tiles` — the slots of a schedule tile its interval

## Design notes

Slots are calculated one by one, each from its position and none from the slot
before it.  That a slot ends where the next one starts is a fact about counts of
nanoseconds: both instants lie equally many slot lengths behind the start.  From
there on counts are not needed any more, and each instant is placed by the order
of instants alone.
-/

namespace Tariff

/-! ## Slots that follow one another -/

/-- **Slots that follow one another** from one instant to another. -/
def Tiles (stop : Instant) : Instant → List Slot → Prop
  | start, [] => start = stop
  | start, slot :: rest =>
    slot.start = start ∧ start.upTo slot.stop = true ∧ Tiles stop slot.stop rest

/-- Where slots follow one another, they do not end before they start. -/
theorem Tiles.upTo {start stop : Instant} {slots : List Slot} (h : Tiles stop start slots) :
    start.upTo stop = true := by
  induction slots generalizing start with
  | nil =>
      obtain rfl := h
      rw [Instant.upTo_iff]
      omega
  | cons slot rest ih =>
      obtain ⟨-, first, others⟩ := h
      have others := ih others
      rw [Instant.upTo_iff] at *
      omega

/-- **Each instant in between lies in one slot**, and no other instant lies in
any. -/
theorem Tiles.countP_covers {start stop : Instant} {slots : List Slot}
    (h : Tiles stop start slots) (time : Instant) :
    (slots.countP fun slot => slot.covers time) =
      if start.upTo time = true ∧ time.before stop = true then 1 else 0 := by
  induction slots generalizing start with
  | nil =>
      obtain rfl := h
      rw [List.countP_nil, if_neg]
      rw [Instant.upTo_iff, Instant.before_iff]
      omega
  | cons slot rest ih =>
      obtain ⟨rfl, first, others⟩ := h
      have last := others.upTo
      rw [List.countP_cons, ih others]
      simp only [Slot.covers, Bool.and_eq_true, Instant.upTo_iff, Instant.before_iff] at *
      -- the instant lies in the first slot, in one of the others or in none
      split <;> split <;> split <;> omega

/-- Slots that lie a whole number of lengths behind a start follow one another. -/
theorem tiles_of_nanos {stop : Instant} {length : ℕ} {slots : List Slot}
    (hstop : stop.isLeap = false) {start : Instant} (hstart : start.isLeap = false)
    (places : ∀ k slot, slots[k]? = some slot →
      (slot.start.isLeap = false ∧ slot.start.nanos = start.nanos + (k * length : ℕ)) ∧
        slot.stop.isLeap = false ∧ slot.stop.nanos = start.nanos + ((k + 1) * length : ℕ))
    (span : stop.nanos = start.nanos + (slots.length * length : ℕ)) : Tiles stop start slots := by
  induction slots generalizing start with
  | nil =>
      refine Instant.eq_of_nanos_eq hstart hstop ?_
      rw [span, List.length_nil, Nat.zero_mul]
      exact (Int.add_zero _).symm
  | cons slot rest ih =>
      obtain ⟨⟨first, firstNanos⟩, last, lastNanos⟩ := places 0 slot rfl
      rw [Nat.zero_mul] at firstNanos
      rw [Nat.zero_add, Nat.one_mul] at lastNanos
      refine ⟨Instant.eq_of_nanos_eq first hstart (firstNanos.trans (Int.add_zero _)), ?_,
        ih last ?_ ?_⟩
      · rw [Instant.upTo, Bool.not_eq_true', ← Bool.not_eq_true,
          Instant.before_iff_nanos_lt last hstart]
        omega
      · -- the places of the rest are counted from the end of the first slot
        intro k other here
        obtain ⟨⟨otherFirst, otherStart⟩, otherLast, otherStop⟩ := places (k + 1) other here
        rw [lastNanos]
        refine ⟨⟨otherFirst, ?_⟩, otherLast, ?_⟩
        · rw [otherStart, Nat.succ_mul]
          omega
        · rw [otherStop, Nat.succ_mul (k + 1)]
          omega
      · rw [lastNanos, span, List.length_cons, Nat.succ_mul]
        omega

/-! ## The slots of a schedule -/

namespace Schedule

variable {c : Contract} {s : Publication} {schedule : Schedule} {slot : Slot} {k : ℕ}

/-- The slot of a place lies as many lengths behind the start as there are slots
before it. -/
theorem Built.nanos_slot (built : Built c s schedule) (start : s.start.isLeap = false)
    (h : schedule.slots[k]? = some slot) :
    (slot.start.isLeap = false ∧
      slot.start.nanos = s.start.nanos + (k * s.slotLength.nanos : ℕ)) ∧
    slot.stop.isLeap = false ∧
      slot.stop.nanos = s.start.nanos + ((k + 1) * s.slotLength.nanos : ℕ) := by
  obtain ⟨point, -, position, slotFor⟩ := built.exists_point h
  have starts := slotFor.starts
  rw [position, Publication.slotStart?] at starts
  split at starts
  · obtain ⟨first, firstNanos⟩ := Instant.nanos_plusMinutes? start starts
    obtain ⟨last, lastNanos⟩ := Instant.nanos_plusMinutes? first slotFor.stops
    rw [Nat.add_sub_cancel, Nat.mul_assoc] at firstNanos
    refine ⟨⟨first, firstNanos⟩, last, ?_⟩
    rw [lastNanos, firstNanos, Nat.succ_mul, SlotLength.nanos]
    omega
  · cases starts

/-- The interval is as long as its slots together. -/
theorem Built.nanos_stop (built : Built c s schedule) (start : s.start.isLeap = false)
    (stop : s.stop.isLeap = false) :
    s.stop.nanos = s.start.nanos + (schedule.slots.length * s.slotLength.nanos : ℕ) := by
  obtain ⟨slots, count, perm⟩ := Publication.validate_eq_ok.mp built.publication
  obtain ⟨-, -, span⟩ := Publication.slotCount_eq_ok.mp count
  have length := perm.length_eq
  rw [List.length_map, List.length_range'] at length
  rw [Instant.nanosUntil_eq start stop] at span
  rw [built.length_slots, length]
  push_cast
  omega

/-- **The slots of a schedule tile its interval.**  Each lies in its place, they
meet, the last ends with the interval, and each instant of the interval lies in
just one of them. -/
theorem build_tiles (h : build c s = .ok schedule) (start : s.start.isLeap = false)
    (stop : s.stop.isLeap = false) :
    (∀ k slot, schedule.slots[k]? = some slot →
      (slot.start.isLeap = false ∧
        slot.start.nanos = s.start.nanos + (k * s.slotLength.nanos : ℕ)) ∧
      slot.stop.isLeap = false ∧
        slot.stop.nanos = s.start.nanos + ((k + 1) * s.slotLength.nanos : ℕ)) ∧
    (∀ k a b, schedule.slots[k]? = some a → schedule.slots[k + 1]? = some b →
      a.stop = b.start) ∧
    (∃ slot, schedule.slots.getLast? = some slot ∧ slot.stop = s.stop) ∧
    (schedule.start = s.start ∧ schedule.stop = s.stop) ∧
    ∀ time, (schedule.slots.countP fun slot => slot.covers time) =
      if s.start.upTo time = true ∧ time.before s.stop = true then 1 else 0 := by
  have built := built_of_build h
  have places : ∀ k slot, schedule.slots[k]? = some slot → _ :=
    fun k slot here => built.nanos_slot start here
  have span := built.nanos_stop start stop
  refine ⟨places, ?_, ?_, built.span,
    (tiles_of_nanos stop start places span).countP_covers⟩
  · intro k a b ha hb
    obtain ⟨-, last, lastNanos⟩ := places k a ha
    obtain ⟨⟨first, firstNanos⟩, -⟩ := places (k + 1) b hb
    exact Instant.eq_of_nanos_eq last first (lastNanos.trans firstNanos.symm)
  · have nonempty := built.slots_ne_nil
    have found := List.getLast?_eq_some_getLast nonempty
    refine ⟨_, found, ?_⟩
    rw [List.getLast?_eq_getElem?] at found
    obtain ⟨-, last, lastNanos⟩ := places _ _ found
    rw [Nat.sub_add_cancel (List.length_pos_iff.mpr nonempty)] at lastNanos
    exact Instant.eq_of_nanos_eq last stop (lastNanos.trans span.symm)

/-- Each instant of three hours lies in one slot. -/
theorem build_tiles_threeHours : ∃ schedule,
    build .twoRates .threeHours = .ok schedule ∧
      ∀ time, (schedule.slots.countP fun slot => slot.covers time) =
        if Publication.threeHours.start.upTo time = true ∧
          time.before Publication.threeHours.stop = true then 1 else 0 := by
  obtain ⟨schedule, h⟩ := exists_threeHours
  obtain ⟨-, -, -, -, covers⟩ := build_tiles h (by decide) (by decide)
  exact ⟨schedule, h, covers⟩

end Schedule

end Tariff
