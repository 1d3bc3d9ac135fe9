import Tariff.Proofs.Pricing.Course

/-!
# The order in which points are published

Points may be published in any order.  A publication is valid in one order when it
is valid in another, and then nothing of a schedule depends on which it was.

## Main statements

* `Publication.validate_of_perm` — validation does not depend on the order
* `Publication.orderedPoints_of_perm` — nor does the order by position, in a valid
  publication
* `Schedule.build_perm` — nor does a schedule

## Design notes

Validation walks over the points as they were published and sorting keeps points
of one position as they stand, so that neither is free of the order by its form.
Both are by what a valid publication is: no position comes twice, so that there is
just one order by position.
-/

namespace Tariff

namespace Publication

variable {s : Publication} {points : List PricePoint}

/-- **Validation does not depend on the order** in which points are published. -/
theorem validate_of_perm (perm : s.points.Perm points) (valid : s.validate = .ok ⟨⟩) :
    { s with points }.validate = .ok ⟨⟩ := by
  -- the number of slots is a matter of the interval alone
  obtain ⟨slots, count, positions⟩ := validate_eq_ok.mp valid
  exact validate_eq_ok.mpr ⟨slots, count, (perm.map PricePoint.position).symm.trans positions⟩

/-- **The order by position** of a valid publication does not depend on the order in
which points are published. -/
theorem orderedPoints_of_perm (valid : s.validate = .ok ⟨⟩) (perm : s.points.Perm points) :
    s.orderedPoints = { s with points }.orderedPoints := by
  have here := s.orderedPoints_perm
  have there := { s with points }.orderedPoints_perm
  have sorted := List.pairwise_map.mp s.orderedPoints_sorted
  have otherSorted := List.pairwise_map.mp { s with points }.orderedPoints_sorted
  refine ((here.trans perm).trans there.symm).eq_of_pairwise ?_ sorted otherSorted
  intro a b ha hb low high
  -- two points of one position are one point
  have memA : a ∈ s.points := here.mem_iff.mp ha
  have memB : b ∈ s.points := perm.mem_iff.mpr (there.mem_iff.mp hb)
  exact eq_of_position_eq valid memA memB (Nat.le_antisymm low high)

end Publication

namespace Schedule

variable {c : Contract} {s : Publication} {points : List PricePoint}

/-- A schedule can also be built from the points in another order. -/
theorem build_of_perm (perm : s.points.Perm points) {schedule : Schedule}
    (h : build c s = .ok schedule) : build c { s with points } = .ok schedule := by
  obtain ⟨⟨⟩, contract, h⟩ := Outcome.bind_eq_ok.mp h
  obtain ⟨⟨⟩, valid, h⟩ := Outcome.bind_eq_ok.mp h
  -- all further steps look at the points by position only
  rw [Publication.orderedPoints_of_perm valid perm] at h
  have other := Publication.validate_of_perm perm valid
  exact Outcome.bind_eq_ok.mpr ⟨⟨⟩, contract, Outcome.bind_eq_ok.mpr ⟨⟨⟩, other, h⟩⟩

/-- **The order of points does not matter**: in whichever order they are published,
the same schedule is built, or none in either. -/
theorem build_perm (perm : s.points.Perm points) (schedule : Schedule) :
    build c s = .ok schedule ↔ build c { s with points } = .ok schedule :=
  ⟨build_of_perm perm, build_of_perm perm.symm⟩

/-- Three hours published from the first to the last make the same schedule. -/
theorem build_perm_threeHours : ∃ schedule,
    build .twoRates .threeHours = .ok schedule ∧
      build .twoRates { Publication.threeHours with
        points := [⟨1, .ofDigits 10049 2⟩, ⟨2, .ofDigits 50 0⟩, ⟨3, .ofDigits 100490 3⟩] } =
          .ok schedule := by
  obtain ⟨schedule, h⟩ := exists_threeHours
  exact ⟨schedule, h, (build_perm (.swap _ _ _) schedule).mp h⟩

end Schedule

end Tariff
