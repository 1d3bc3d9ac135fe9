import Tariff.Proofs.Pricing.Course
import Tariff.Proofs.Pricing.Failure
import Tariff.Proofs.Time.Instant

/-!
# Complete publications

A publication is complete when its interval is made up of whole slots and each of them
has one price.  Validation accepts the complete publications and no others, and in these
the points are found in the order of their slots, each with its time.

## Main definitions

* `Publication.IsComplete` — a publication with one price for each of its slots

## Main statements

* `Publication.validate_eq_ok_iff` — just the complete publications are valid
* `Publication.exists_slotStart?` — their slots lie one length behind another
* `Publication.validate_complete` — all of this together

## Design notes

Validation looks at times twice: it compares whole minutes with zero, and then asks that
the length of a slot divides the interval to the nanosecond.  The second is what counts,
since a length that divides an interval is a whole number of minutes itself.

That a slot has a start is not only a matter of its position: the start must lie within
the calendar.  It does, since the end of the interval does, and no slot starts behind it.

How long an interval is and what lies some minutes behind an instant is said with the time
between instants and the move by minutes, also in leap seconds.  Outside of them both are
sums and differences of counts of nanoseconds.
-/

namespace Tariff.Publication

variable {s : Publication} {n k : ℕ}

/-- **A complete publication**: an interval of `n` slots, each with one price. -/
structure IsComplete (s : Publication) (n : ℕ) : Prop where
  /-- There is a slot. -/
  positive : 1 ≤ n
  /-- The number of slots has at most 32 bits. -/
  bounded : n ≤ 2 ^ 32 - 1
  /-- The slots fill the interval. -/
  span : s.start.nanosUntil s.stop = n * s.slotLength.nanos
  /-- Each position is that of one point. -/
  positions : (s.points.map PricePoint.position).Perm (List.range' 1 n)

/-- **Just the complete publications are valid.** -/
theorem validate_eq_ok_iff : s.validate = .ok ⟨⟩ ↔ ∃ n, s.IsComplete n := by
  rw [validate_eq_ok]
  refine exists_congr fun n => ?_
  rw [slotCount_eq_ok]
  constructor
  · rintro ⟨⟨positive, bounded, span⟩, positions⟩
    exact { positive, bounded, span, positions }
  · intro complete
    exact ⟨⟨complete.positive, complete.bounded, complete.span⟩, complete.positions⟩

/-- A complete publication has as many points as slots. -/
theorem IsComplete.length_points (complete : s.IsComplete n) : s.points.length = n := by
  simpa using complete.positions.length_eq

/-- **The slot at a position** starts as many lengths behind the start of the interval as there are
slots before it. -/
theorem exists_slotStart? (complete : s.IsComplete n) (positive : 1 ≤ k) (within : k ≤ n)
    (room : k ≤ 2 ^ 31) : ∃ time, s.slotStart? k = some time ∧
      s.start.plusMinutes? ((k - 1) * s.slotLength.minutes) = some time := by
  -- the slots up to the position end with the interval at the latest
  have upTo : (k - 1) * s.slotLength.nanos + s.slotLength.nanos ≤ n * s.slotLength.nanos := by
    rw [← Nat.succ_mul]
    exact Nat.mul_le_mul_right _ (by omega)
  have calendar : s.start.second + ((k - 1) * s.slotLength.minutes : ℕ) * 60 ≤
      Instant.lastSecond := by
    have span := complete.span.symm.trans_le (Instant.nanosUntil_le s.start s.stop)
    have minute := s.slotLength.minutes_pos
    have last : s.stop.second ≤ Instant.lastSecond := s.stop.second_le
    have nano := s.stop.nano_lt
    rw [SlotLength.nanos, ← Nat.mul_assoc] at upTo
    unfold SlotLength.nanos at span
    unfold Instant.nanos at span
    unfold nanosPerMinute nanosPerSecond at *
    omega
  obtain ⟨time, moved, -⟩ := Instant.exists_plusMinutes? calendar
  refine ⟨time, ?_, moved⟩
  rw [slotStart?, if_pos ⟨positive, room⟩, moved]

/-- **Validation accepts the complete publications.**  A publication is valid when its interval is
made up of slots and the positions of its points are those of the slots, each once and in any order.
Its slots are then counted right, its points are brought into their order, and each slot starts
where the slots before it end.  Outside leap seconds all this holds of counts of nanoseconds. -/
theorem validate_complete (s : Publication) :
    (s.validate = .ok ⟨⟩ ↔ ∃ n, s.IsComplete n) ∧
    (∀ n, s.IsComplete n →
      s.slotCount = .ok n ∧
      s.orderedPoints.map PricePoint.position = List.range' 1 n ∧
      s.orderedPoints.Perm s.points ∧
      ∀ k, 1 ≤ k → k ≤ min n (2 ^ 31) → ∃ time, s.slotStart? k = some time ∧
        s.start.plusMinutes? ((k - 1) * s.slotLength.minutes) = some time ∧
        (s.start.isLeap = false → time.isLeap = false ∧
          time.nanos = s.start.nanos + ((k - 1) * s.slotLength.nanos : ℕ))) ∧
    (s.start.isLeap = false → s.stop.isLeap = false →
      s.start.nanosUntil s.stop = s.stop.nanos - s.start.nanos) := by
  refine ⟨validate_eq_ok_iff, fun n complete => ?_, Instant.nanosUntil_eq⟩
  have valid := validate_eq_ok_iff.mpr ⟨n, complete⟩
  refine ⟨?_, ?_, s.orderedPoints_perm, fun k positive bound => ?_⟩
  · exact slotCount_eq_ok.mpr ⟨complete.positive, complete.bounded, complete.span⟩
  · rw [orderedPoints_positions valid, complete.length_points]
  · obtain ⟨within, room⟩ := le_min_iff.mp bound
    obtain ⟨time, starts, moved⟩ := exists_slotStart? complete positive within room
    refine ⟨time, starts, moved, fun regular => ?_⟩
    rw [SlotLength.nanos, ← Nat.mul_assoc]
    exact Instant.nanos_plusMinutes? regular moved

/-- Three hours that are published out of order are complete, and the third starts after two of
them; with a price missing they are not. -/
theorem validate_complete_threeHours :
    (threeHours.validate = .ok ⟨⟩ ∧
      threeHours.orderedPoints.map PricePoint.position = [1, 2, 3] ∧
      ∃ time, threeHours.slotStart? 3 = some time ∧
        time.nanos = threeHours.start.nanos + 7200000000000) ∧
    ¬ ∃ n, IsComplete { threeHours with points := threeHours.points.tail } n := by
  have valid : threeHours.validate = .ok ⟨⟩ := by decide +kernel
  obtain ⟨accepted, ordered, -⟩ := validate_complete threeHours
  obtain ⟨n, complete⟩ := accepted.mp valid
  obtain rfl : 3 = n := complete.length_points
  obtain ⟨-, positions, -, times⟩ := ordered 3 complete
  obtain ⟨time, starts, -, counts⟩ := times 3 (by decide) (by decide)
  refine ⟨⟨valid, positions, time, starts, (counts (by decide)).2⟩, ?_⟩
  rw [← (validate_complete { threeHours with points := threeHours.points.tail }).1]
  decide +kernel

end Tariff.Publication
