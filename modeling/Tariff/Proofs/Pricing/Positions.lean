import Mathlib.Data.List.Sort
import Mathlib.Tactic.NormNum
import Tariff.Pricing.Publication
import Tariff.Proofs.Outcome

/-!
# The positions of a publication

A valid publication has a price for each slot.  Validation walks over the points
and notes which positions it has seen; here it is shown to accept just those
publications whose positions are the numbers from one up to the number of slots,
in some order.

## Main statements

* `Publication.slotCount_eq_ok` — the number of slots fills the interval
* `Publication.checkPositions_eq_ok` — the walk finds positions out of range and
  positions that come twice
* `Publication.validate_eq_ok` — valid publications
* `Publication.orderedPoints_positions` — in their order the points have the
  positions one, two and so on

## Design notes

The walk says nothing about missing positions.  That none is missing is a matter
of counting: as many different positions as there are slots, all of them slots,
leave out no slot.
-/

namespace Tariff.Publication

/-- A span has whole minutes when it is as long as one. -/
theorem minutes_pos_iff (span : ℤ) :
    span.tdiv nanosPerMinute ≤ 0 ↔ span < nanosPerMinute := by
  have minute : (0 : ℤ) < nanosPerMinute := by decide
  rcases le_or_gt 0 span with nonneg | neg
  · rw [Int.tdiv_eq_ediv_of_nonneg nonneg, ← not_lt, ← not_le (a := (nanosPerMinute : ℤ)),
      not_iff_not, ← Int.add_one_le_iff, zero_add, Int.le_ediv_iff_mul_le minute, one_mul]
  · have nonpos : span.tdiv nanosPerMinute ≤ 0 := by
      have := Int.tdiv_nonneg (a := -span) (b := nanosPerMinute) (by omega) minute.le
      rw [Int.neg_tdiv] at this
      omega
    exact iff_of_true nonpos (neg.trans minute)

/-- **The number of slots fills the interval.** -/
theorem slotCount_eq_ok {s : Publication} {slots : ℕ} :
    s.slotCount = .ok slots ↔ 1 ≤ slots ∧ slots ≤ maxSlots ∧
      s.start.nanosUntil s.stop = slots * s.slotLength.nanos := by
  have minute : 0 < nanosPerMinute := by decide
  have length : nanosPerMinute ≤ s.slotLength.nanos :=
    Nat.le_mul_of_pos_left _ s.slotLength.minutes_pos
  have pos : (0 : ℤ) < s.slotLength.nanos := by exact_mod_cast minute.trans_le length
  rw [slotCount]
  simp only [minutes_pos_iff]
  constructor
  · intro h
    split at h
    · cases h
    next long =>
      split at h
      · cases h
      next divides =>
        split at h
        · next bound =>
            obtain rfl := Except.ok.inj h
            have whole := Int.ediv_mul_cancel (Int.dvd_of_emod_eq_zero (not_not.mp divides))
            have quotient : 0 < s.start.nanosUntil s.stop / s.slotLength.nanos := by
              by_contra nonpos
              have := mul_nonpos_of_nonpos_of_nonneg (not_lt.mp nonpos) pos.le
              omega
            refine ⟨by omega, bound, ?_⟩
            rw [Int.toNat_of_nonneg quotient.le, whole]
        · cases h
  · rintro ⟨positive, bound, span⟩
    have long : (nanosPerMinute : ℤ) ≤ slots * s.slotLength.nanos := by
      exact_mod_cast length.trans (Nat.le_mul_of_pos_left _ positive)
    rw [span, if_neg (not_lt.mpr long), if_neg (by simp), Int.mul_ediv_cancel _ pos.ne',
      Int.toNat_natCast, if_pos bound]

/-- **The walk over the points** finds positions that are out of range, have been
seen before or come twice. -/
theorem checkPositions_eq_ok {slots : ℕ} {seen : List ℕ} {points : List PricePoint} :
    checkPositions slots seen points = .ok ⟨⟩ ↔
      (∀ point ∈ points, 1 ≤ point.position ∧ point.position ≤ slots ∧
        point.position ∉ seen) ∧ (points.map PricePoint.position).Nodup := by
  induction points generalizing seen with
  | nil => simp [checkPositions]
  | cons point rest ih =>
      rw [checkPositions]
      split
      · next out =>
          simp only [reduceCtorEq, false_iff, not_and, List.forall_mem_cons]
          intro h
          omega
      · next within =>
          split
          · next twice =>
              simp only [reduceCtorEq, false_iff, not_and, List.forall_mem_cons]
              intro h
              exact absurd (List.contains_iff_mem.mp twice) h.1.2.2
          · next once =>
              rw [List.contains_iff_mem] at once
              rw [ih, List.forall_mem_cons, List.map_cons, List.nodup_cons, List.mem_map]
              constructor
              · rintro ⟨others, nodup⟩
                refine ⟨⟨⟨by omega, by omega, once⟩, ?_⟩, ?_, nodup⟩
                · intro p mem
                  obtain ⟨low, high, unseen⟩ := others p mem
                  exact ⟨low, high, fun h => unseen (List.mem_cons_of_mem _ h)⟩
                · rintro ⟨p, mem, eq⟩
                  exact (others p mem).2.2 (eq ▸ List.mem_cons_self)
              · rintro ⟨⟨-, others⟩, new, nodup⟩
                refine ⟨?_, nodup⟩
                intro p mem
                obtain ⟨low, high, unseen⟩ := others p mem
                refine ⟨low, high, ?_⟩
                intro h
                rcases List.mem_cons.mp h with eq | old
                · exact new ⟨p, mem, eq⟩
                · exact unseen old

/-- As many different positions as there are slots, all of them slots, leave out
no slot. -/
theorem perm_range'_iff {positions : List ℕ} {slots : ℕ} :
    positions.Perm (List.range' 1 slots) ↔
      (∀ position ∈ positions, 1 ≤ position ∧ position ≤ slots) ∧ positions.Nodup ∧
        positions.length = slots := by
  constructor
  · intro perm
    refine ⟨?_, perm.nodup_iff.mpr List.nodup_range', perm.length_eq.trans List.length_range'⟩
    intro position mem
    have := List.mem_range'_1.mp (perm.mem_iff.mp mem)
    omega
  · rintro ⟨range, nodup, length⟩
    have subset : positions ⊆ List.range' 1 slots := by
      intro position mem
      have := range position mem
      exact List.mem_range'_1.mpr (by omega)
    -- different numbers within a range of as many are all of that range
    exact (List.subperm_of_subset nodup subset).perm_of_length_le
      (by rw [List.length_range', length])

/-- **Valid publications** have a point for each slot. -/
theorem validate_eq_ok {s : Publication} :
    s.validate = .ok ⟨⟩ ↔ ∃ slots, s.slotCount = .ok slots ∧
      (s.points.map PricePoint.position).Perm (List.range' 1 slots) := by
  rw [validate]
  split
  · next empty =>
      rw [List.isEmpty_iff] at empty
      simp only [reduceCtorEq, false_iff, empty, List.map_nil]
      rintro ⟨slots, count, perm⟩
      have := perm.length_eq
      have := (slotCount_eq_ok.mp count).1
      simp only [List.length_nil, List.length_range'] at *
      omega
  · simp only [Outcome.bind_eq_ok]
    constructor
    · rintro ⟨slots, count, ⟨⟩, walk, h⟩
      obtain ⟨range, nodup⟩ := checkPositions_eq_ok.mp walk
      split at h
      · next length =>
          refine ⟨slots, count, perm_range'_iff.mpr ⟨?_, nodup, by simpa using length⟩⟩
          intro position mem
          obtain ⟨point, hpoint, rfl⟩ := List.mem_map.mp mem
          exact ⟨(range point hpoint).1, (range point hpoint).2.1⟩
      · cases h
    · rintro ⟨slots, count, perm⟩
      obtain ⟨range, nodup, length⟩ := perm_range'_iff.mp perm
      refine ⟨slots, count, ⟨⟩, checkPositions_eq_ok.mpr ⟨?_, nodup⟩, ?_⟩
      · intro point mem
        obtain ⟨low, high⟩ := range _ (List.mem_map_of_mem mem)
        exact ⟨low, high, List.not_mem_nil⟩
      · rw [if_pos (by simpa using length)]

/-- A valid publication has at least one point, and no more than there may be slots. -/
theorem length_points {s : Publication} (valid : s.validate = .ok ⟨⟩) :
    1 ≤ s.points.length ∧ s.points.length ≤ maxSlots := by
  obtain ⟨slots, count, perm⟩ := validate_eq_ok.mp valid
  obtain ⟨positive, bound, -⟩ := slotCount_eq_ok.mp count
  have length := perm.length_eq
  rw [List.length_map, List.length_range'] at length
  rw [length]
  exact ⟨positive, bound⟩

/-! ## The points in order -/

theorem orderedPoints_perm (s : Publication) : s.orderedPoints.Perm s.points :=
  sortBy_perm _ _

/-- In their order no point comes before one of a lesser position. -/
theorem orderedPoints_sorted (s : Publication) :
    (s.orderedPoints.map PricePoint.position).Pairwise (· ≤ ·) := by
  rw [List.pairwise_map]
  have sorted : s.orderedPoints.Pairwise fun a b => decide (b.position < a.position) = false := by
    refine sortBy_pairwise ?_ ?_ s.points
    · intro a b
      simp only [decide_eq_true_eq, decide_eq_false_iff_not]
      omega
    · intro a b c
      simp only [decide_eq_false_iff_not]
      omega
  refine sorted.imp ?_
  intro a b h
  rwa [decide_eq_false_iff_not, not_lt] at h

/-- **In their order the points have the positions one, two and so on.** -/
theorem orderedPoints_positions {s : Publication} (valid : s.validate = .ok ⟨⟩) :
    s.orderedPoints.map PricePoint.position = List.range' 1 s.points.length := by
  obtain ⟨slots, -, perm⟩ := validate_eq_ok.mp valid
  have length : s.points.length = slots := by
    simpa using (perm_range'_iff.mp perm).2.2
  rw [length]
  -- in ascending order two lists of the same numbers are equal
  exact ((s.orderedPoints_perm.map _).trans perm).eq_of_pairwise
    (fun a b _ _ => Nat.le_antisymm) s.orderedPoints_sorted List.pairwise_le_range'

/-- The point in a place has the position of that place. -/
theorem position_of_getElem? {s : Publication} (valid : s.validate = .ok ⟨⟩) {k : ℕ}
    {point : PricePoint} (h : s.orderedPoints[k]? = some point) : point.position = k + 1 := by
  have here : (s.orderedPoints.map PricePoint.position)[k]? = some point.position := by
    rw [List.getElem?_map, h, Option.map_some]
  rw [orderedPoints_positions valid] at here
  obtain ⟨_, eq⟩ := List.getElem?_eq_some_iff.mp here
  rw [List.getElem_range'] at eq
  omega

/-- In a valid publication only one point has a given position. -/
theorem eq_of_position_eq {s : Publication} (valid : s.validate = .ok ⟨⟩) {a b : PricePoint}
    (ha : a ∈ s.points) (hb : b ∈ s.points) (eq : a.position = b.position) : a = b := by
  obtain ⟨slots, -, perm⟩ := validate_eq_ok.mp valid
  exact List.inj_on_of_nodup_map (perm_range'_iff.mp perm).2.1 ha hb eq

end Tariff.Publication
