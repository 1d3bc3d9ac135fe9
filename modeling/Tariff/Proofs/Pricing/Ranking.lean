import Mathlib.Data.Finset.Card
import Tariff.Proofs.Pricing.Course

/-!
# Ranks

The rank of a slot is looked up in a sorted copy of the totals.  It is shown to
count the slots that cost less, and from that count everything else about ranks
follows.

## Main definitions

* `Slot.IsFirst` — the earliest slot of a list with some property

## Main statements

* `rankAmong_ascending` — a rank counts the totals below
* `Schedule.Built.rank_le_rank_iff` — ranks stand in the order of totals
* `Schedule.Built.cheapest_isFirst`, `mostExpensive_isFirst` — the extremes
* `Schedule.build_ranking` — all there is to know about the ranks of a schedule

## Design notes

A rank is a function of the number that a total denotes, not of the way it is
written: `1.0` and `1.00` share a rank.  Ranks are therefore counted on numbers,
and sorting matters only as far as the number of totals in front goes.
-/

namespace Tariff

/-! ## Totals in ascending order -/

/-- In ascending order no total is above a later one. -/
theorem ascending_sorted (totals : List Decimal) :
    (ascending totals).Pairwise fun a b => a.toRat ≤ b.toRat := by
  have sorted : (ascending totals).Pairwise fun a b => b.below a = false := by
    refine sortBy_pairwise ?_ ?_ totals
    · intro a b h
      rw [Decimal.below_iff] at h
      exact (Decimal.below_eq_false_iff _ _).mpr h.le
    · intro a b c hab hbc
      rw [Decimal.below_eq_false_iff] at *
      exact hbc.trans hab
  exact sorted.imp fun h => (Decimal.below_eq_false_iff _ _).mp h

/-- In a sorted list the totals below a total stand in front. -/
theorem length_takeWhile_below {sorted : List Decimal}
    (h : sorted.Pairwise fun a b => a.toRat ≤ b.toRat) (total : Decimal) :
    (sorted.takeWhile fun other => other.below total).length =
      sorted.countP fun other => other.below total := by
  induction sorted with
  | nil => rfl
  | cons first rest ih =>
      obtain ⟨least, sortedRest⟩ := List.pairwise_cons.mp h
      by_cases below : first.below total = true
      · rw [List.takeWhile_cons, if_pos below, List.countP_cons, if_pos below, List.length_cons,
          ih sortedRest]
      · -- behind a total that is not below there is none that is
        have none : rest.countP (fun other => other.below total) = 0 := by
          rw [List.countP_eq_zero]
          intro other mem otherBelow
          rw [Decimal.below_iff] at below otherBelow
          exact below ((least other mem).trans_lt otherBelow)
        rw [List.takeWhile_cons, if_neg below, List.countP_cons, if_neg below, none, List.length_nil]

/-- **A rank counts the totals below.** -/
theorem rankAmong_ascending (totals : List Decimal) (total : Decimal) :
    rankAmong (ascending totals) total = 1 + totals.countP fun other => other.below total := by
  rw [rankAmong, length_takeWhile_below (ascending_sorted totals), Nat.add_comm,
    (ascending_perm totals).countP_eq]

/-- The first of the sorted totals is the lowest, and the last is the highest. -/
theorem extremes_ascending {totals : List Decimal} (some : totals ≠ []) :
    ((ascending totals).headD .zero ∈ totals ∧
      ∀ total ∈ totals, ((ascending totals).headD .zero).toRat ≤ total.toRat) ∧
    ((ascending totals).getLastD .zero ∈ totals ∧
      ∀ total ∈ totals, total.toRat ≤ ((ascending totals).getLastD .zero).toRat) := by
  have perm := ascending_perm totals
  have sorted := ascending_sorted totals
  cases eq : ascending totals with
  | nil =>
      rw [eq] at perm
      exact absurd perm.nil_eq.symm some
  | cons first rest =>
      rw [eq] at perm sorted
      have nonempty : first :: rest ≠ [] := List.cons_ne_nil _ _
      have last : (first :: rest).getLastD .zero = (first :: rest).getLast nonempty := by
        rw [List.getLastD_eq_getLast?, List.getLast?_eq_some_getLast nonempty, Option.getD_some]
      rw [List.headD_cons, last]
      refine ⟨⟨perm.mem_iff.mp List.mem_cons_self, ?_⟩,
        perm.mem_iff.mp (List.getLast_mem nonempty), ?_⟩
      · intro total mem
        rcases List.mem_cons.mp (perm.mem_iff.mpr mem) with rfl | mem
        · exact le_rfl
        · exact (List.pairwise_cons.mp sorted).1 total mem
      · intro total mem
        exact sorted.rel_getLast_of_rel_getLast_getLast (perm.mem_iff.mpr mem) le_rfl

/-! ## Counting on numbers -/

section Counting

variable {numbers : List ℚ} {x y : ℚ}

/-- The lower of two numbers has no more numbers below it. -/
theorem countP_lt_mono (le : x ≤ y) : numbers.countP (· < x) ≤ numbers.countP (· < y) := by
  refine List.countP_mono_left ?_
  intro z _ below
  rw [decide_eq_true_eq] at *
  exact below.trans_le le

/-- A number that belongs to the list is counted below all higher ones. -/
theorem countP_lt_lt (mem : x ∈ numbers) (lt : x < y) :
    numbers.countP (· < x) < numbers.countP (· < y) := by
  induction numbers with
  | nil => cases mem
  | cons first rest ih =>
      simp only [List.countP_cons, decide_eq_true_eq]
      rcases List.mem_cons.mp mem with rfl | mem
      · rw [if_neg (lt_irrefl x), if_pos lt]
        -- the number itself is counted for the higher one only
        exact Nat.lt_succ_of_le (countP_lt_mono lt.le)
      · refine Nat.add_lt_add_of_lt_of_le (ih mem) ?_
        by_cases below : first < x
        · rw [if_pos below, if_pos (below.trans lt)]
        · rw [if_neg below]
          exact Nat.zero_le _

/-- Counts of lower numbers stand in the order of the numbers. -/
theorem countP_lt_le_iff (mem : y ∈ numbers) :
    numbers.countP (· < x) ≤ numbers.countP (· < y) ↔ x ≤ y := by
  refine ⟨?_, countP_lt_mono⟩
  intro le
  by_contra above
  exact absurd (countP_lt_lt mem (not_le.mp above)) (not_lt.mpr le)

end Counting

/-! ## The earliest slot with a property -/

/-- Whether a slot is the earliest of a list with some property. -/
def Slot.IsFirst (slots : List Slot) (property : Slot → Prop) (slot : Slot) : Prop :=
  ∃ k : ℕ, slots[k]? = some slot ∧ property slot ∧
    ∀ j < k, ∀ other, slots[j]? = some other → ¬ property other

/-- A search finds the earliest slot. -/
theorem find?_isFirst {slots : List Slot} (test : Slot → Bool) {property : Slot → Prop}
    (tests : ∀ slot ∈ slots, test slot = true ↔ property slot) {some : Slot} (mem : some ∈ slots)
    (has : property some) : ∃ slot, slots.find? test = .some slot ∧ slot.IsFirst slots property := by
  have found : (slots.find? test).isSome = true :=
    List.find?_isSome.mpr ⟨some, mem, (tests some mem).mpr has⟩
  obtain ⟨slot, hslot⟩ := Option.isSome_iff_exists.mp found
  obtain ⟨passes, k, bound, here, before⟩ := List.find?_eq_some_iff_getElem.mp hslot
  refine ⟨slot, hslot, k, List.getElem?_eq_some_iff.mpr ⟨bound, here⟩, ?_, ?_⟩
  · exact (tests slot (List.mem_of_find?_eq_some hslot)).mp passes
  · intro j lt other hother hasOther
    obtain ⟨inside, rfl⟩ := List.getElem?_eq_some_iff.mp hother
    have fails := before j lt
    rw [(tests _ (List.getElem_mem inside)).mpr hasOther] at fails
    exact Bool.noConfusion fails

namespace Schedule

/-! ## The highest rank -/

/-- The highest rank so far is the one at the start or that of some slot. -/
theorem foldl_max_spec (slots : List Slot) (start : ℕ) :
    start ≤ slots.foldl (fun top slot => max top slot.rank) start ∧
      (∀ slot ∈ slots, slot.rank ≤ slots.foldl (fun top slot => max top slot.rank) start) ∧
        (slots.foldl (fun top slot => max top slot.rank) start = start ∨
          ∃ slot ∈ slots, slot.rank = slots.foldl (fun top slot => max top slot.rank) start) := by
  induction slots generalizing start with
  | nil => exact ⟨le_rfl, by simp, .inl rfl⟩
  | cons first rest ih =>
      rw [List.foldl_cons]
      obtain ⟨from_start, above, attained⟩ := ih (max start first.rank)
      refine ⟨(le_max_left _ _).trans from_start, ?_, ?_⟩
      · intro slot mem
        rcases List.mem_cons.mp mem with rfl | mem
        · exact (le_max_right _ _).trans from_start
        · exact above slot mem
      · rcases attained with stays | ⟨slot, mem, eq⟩
        · rcases le_total start first.rank with le | le
          · exact .inr ⟨first, List.mem_cons_self, by rw [stays, max_eq_right le]⟩
          · exact .inl (by rw [stays, max_eq_left le])
        · exact .inr ⟨slot, List.mem_cons_of_mem _ mem, eq⟩

theorem rank_le_topRank {schedule : Schedule} {slot : Slot} (mem : slot ∈ schedule.slots) :
    slot.rank ≤ schedule.topRank :=
  (foldl_max_spec schedule.slots 0).2.1 slot mem

/-! ## The ranks of a schedule -/

namespace Built

variable {c : Contract} {s : Publication} {schedule : Schedule} {a b slot : Slot}

/-- **A rank counts the slots that cost less.** -/
theorem rank_eq (built : Built c s schedule) (mem : slot ∈ schedule.slots) :
    slot.rank = 1 + schedule.slots.countP fun other => other.charge < slot.charge := by
  obtain ⟨k, here⟩ := List.mem_iff_getElem?.mp mem
  obtain ⟨point, -, -, slotFor⟩ := built.exists_point here
  rw [slotFor.rank, rankAmong_ascending, totals, List.countP_map]
  congr 1
  refine List.countP_congr ?_
  intro other _
  rw [decide_eq_true_eq]
  exact Decimal.below_iff _ _

/-- The count of a rank is one on numbers. -/
theorem rank_eq_charges (built : Built c s schedule) (mem : slot ∈ schedule.slots) :
    slot.rank = 1 + (schedule.slots.map Slot.charge).countP (· < slot.charge) := by
  rw [built.rank_eq mem, List.countP_map]
  rfl

/-- **Ranks stand in the order of totals.** -/
theorem rank_le_rank_iff (built : Built c s schedule) (ha : a ∈ schedule.slots)
    (hb : b ∈ schedule.slots) : a.rank ≤ b.rank ↔ a.charge ≤ b.charge := by
  rw [built.rank_eq_charges ha, built.rank_eq_charges hb, Nat.add_le_add_iff_left]
  exact countP_lt_le_iff (List.mem_map_of_mem hb)

/-- Equal totals share a rank, and slots of one rank have equal totals. -/
theorem rank_eq_rank_iff (built : Built c s schedule) (ha : a ∈ schedule.slots)
    (hb : b ∈ schedule.slots) : a.rank = b.rank ↔ a.charge = b.charge := by
  rw [le_antisymm_iff, le_antisymm_iff, built.rank_le_rank_iff ha hb, built.rank_le_rank_iff hb ha]

/-- A rank lies between one and the number of slots. -/
theorem rank_bounds (built : Built c s schedule) (mem : slot ∈ schedule.slots) :
    1 ≤ slot.rank ∧ slot.rank ≤ schedule.slots.length := by
  have below : schedule.slots.countP (fun other => other.charge < slot.charge) <
      schedule.slots.length :=
    List.countP_lt_length_iff.mpr ⟨slot, mem, by simp⟩
  rw [built.rank_eq mem]
  omega

/-- There are as many ranks as there are totals. -/
theorem card_ranks (built : Built c s schedule) :
    (schedule.slots.map Slot.rank).toFinset.card =
      (schedule.slots.map Slot.charge).toFinset.card := by
  have image : (schedule.slots.map Slot.rank).toFinset =
      (schedule.slots.map Slot.charge).toFinset.image fun x =>
        1 + (schedule.slots.map Slot.charge).countP (· < x) := by
    ext rank
    simp only [List.mem_toFinset, List.mem_map, Finset.mem_image]
    constructor
    · rintro ⟨slot, mem, rfl⟩
      exact ⟨slot.charge, ⟨slot, mem, rfl⟩, (built.rank_eq_charges mem).symm⟩
    · rintro ⟨_, ⟨slot, mem, rfl⟩, rfl⟩
      exact ⟨slot, mem, built.rank_eq_charges mem⟩
  rw [image]
  refine Finset.card_image_of_injOn ?_
  intro x hx y hy eq
  rw [Finset.mem_coe, List.mem_toFinset] at hx hy
  have same := Nat.add_left_cancel eq
  exact le_antisymm ((countP_lt_le_iff hy).mp same.le) ((countP_lt_le_iff hx).mp same.ge)

/-! ## The extremes -/

/-- The slots of rank one are those with the lowest total. -/
theorem rank_eq_one_iff (built : Built c s schedule) (mem : slot ∈ schedule.slots) :
    slot.rank = 1 ↔ ∀ other ∈ schedule.slots, slot.charge ≤ other.charge := by
  have none : slot.rank = 1 ↔
      schedule.slots.countP (fun other => other.charge < slot.charge) = 0 := by
    rw [built.rank_eq mem]
    omega
  rw [none, List.countP_eq_zero]
  simp only [decide_eq_true_eq, not_lt]

/-- The slots of the highest rank are those with the highest total. -/
theorem rank_eq_topRank_iff (built : Built c s schedule) (mem : slot ∈ schedule.slots) :
    slot.rank = schedule.topRank ↔ ∀ other ∈ schedule.slots, other.charge ≤ slot.charge := by
  constructor
  · intro top other hother
    rw [← built.rank_le_rank_iff hother mem, top]
    exact rank_le_topRank hother
  · intro highest
    refine le_antisymm (rank_le_topRank mem) ?_
    rcases (foldl_max_spec schedule.slots 0).2.2 with zero | ⟨top, htop, eq⟩
    · rw [topRank, zero]
      exact Nat.zero_le _
    · rw [topRank, ← eq]
      exact (built.rank_le_rank_iff htop mem).mpr (highest top htop)

/-- The lowest total is that of a slot, and no slot is below. -/
theorem exists_lowest (built : Built c s schedule) :
    ∃ slot ∈ schedule.slots, slot.charge = schedule.lowest.toRat ∧
      ∀ other ∈ schedule.slots, slot.charge ≤ other.charge := by
  have some : schedule.totals ≠ [] := fun none => built.slots_ne_nil (List.map_eq_nil_iff.mp none)
  obtain ⟨⟨mem, least⟩, -⟩ := extremes_ascending some
  obtain ⟨slot, hslot, eq⟩ := List.mem_map.mp mem
  have charge : slot.charge = schedule.lowest.toRat := congrArg Decimal.toRat eq
  refine ⟨slot, hslot, charge, ?_⟩
  intro other hother
  rw [charge]
  exact least _ (List.mem_map_of_mem hother)

/-- The highest total is that of a slot, and no slot is above. -/
theorem exists_highest (built : Built c s schedule) :
    ∃ slot ∈ schedule.slots, slot.charge = schedule.highest.toRat ∧
      ∀ other ∈ schedule.slots, other.charge ≤ slot.charge := by
  have some : schedule.totals ≠ [] := fun none => built.slots_ne_nil (List.map_eq_nil_iff.mp none)
  obtain ⟨-, mem, greatest⟩ := extremes_ascending some
  obtain ⟨slot, hslot, eq⟩ := List.mem_map.mp mem
  have charge : slot.charge = schedule.highest.toRat := congrArg Decimal.toRat eq
  refine ⟨slot, hslot, charge, ?_⟩
  intro other hother
  rw [charge]
  exact greatest _ (List.mem_map_of_mem hother)

/-- All totals are told in the unit of the schedule. -/
theorem unit_total (built : Built c s schedule) (mem : slot ∈ schedule.slots) :
    slot.total.unit = schedule.unit := by
  obtain ⟨k, here⟩ := List.mem_iff_getElem?.mp mem
  obtain ⟨point, -, -, slotFor⟩ := built.exists_point here
  exact (slotFor.toRat_total built).1

/-- The statistics tell the lowest and the highest total. -/
theorem statistics_eq (built : Built c s schedule) :
    (schedule.statistics.min.value.toRat = schedule.lowest.toRat ∧
      schedule.statistics.min.unit = schedule.unit) ∧
    (schedule.statistics.max.value.toRat = schedule.highest.toRat ∧
      schedule.statistics.max.unit = schedule.unit) := by
  obtain ⟨average, -, statistics⟩ := built.statistics
  rw [statistics]
  exact ⟨⟨Decimal.toRat_normalize _, rfl⟩, Decimal.toRat_normalize _, rfl⟩

/-- **The cheapest slot** is the earliest with the lowest total, which is also
the minimum of the statistics. -/
theorem cheapest_isFirst (built : Built c s schedule) :
    ∃ slot, schedule.cheapest? = some slot ∧
      slot.IsFirst schedule.slots (fun slot =>
        ∀ other ∈ schedule.slots, slot.charge ≤ other.charge) ∧
      schedule.statistics.min.value.toRat = slot.charge ∧
        schedule.statistics.min.unit = slot.total.unit := by
  obtain ⟨low, hlow, charge, least⟩ := built.exists_lowest
  obtain ⟨slot, found, k, here, lowest, before⟩ :=
    find?_isFirst (fun slot => slot.rank == 1)
      (fun slot mem => beq_iff_eq.trans (built.rank_eq_one_iff mem)) hlow least
  have mem := List.mem_of_getElem? here
  have same : low.charge = slot.charge := le_antisymm (least slot mem) (lowest low hlow)
  obtain ⟨⟨value, unit⟩, -⟩ := built.statistics_eq
  refine ⟨slot, found, ⟨k, here, lowest, before⟩, ?_, ?_⟩
  · rw [value, ← charge, same]
  · rw [unit, built.unit_total mem]

/-- **The most expensive slot** is the earliest with the highest total, which is
also the maximum of the statistics. -/
theorem mostExpensive_isFirst (built : Built c s schedule) :
    ∃ slot, schedule.mostExpensive? = some slot ∧
      slot.IsFirst schedule.slots (fun slot =>
        ∀ other ∈ schedule.slots, other.charge ≤ slot.charge) ∧
      schedule.statistics.max.value.toRat = slot.charge ∧
        schedule.statistics.max.unit = slot.total.unit := by
  obtain ⟨high, hhigh, charge, greatest⟩ := built.exists_highest
  obtain ⟨slot, found, k, here, highest, before⟩ :=
    find?_isFirst (fun slot => slot.rank == schedule.topRank)
      (fun slot mem => beq_iff_eq.trans (built.rank_eq_topRank_iff mem)) hhigh greatest
  have mem := List.mem_of_getElem? here
  have same : high.charge = slot.charge := le_antisymm (highest high hhigh) (greatest slot mem)
  obtain ⟨-, value, unit⟩ := built.statistics_eq
  refine ⟨slot, found, ⟨k, here, highest, before⟩, ?_, ?_⟩
  · rw [value, ← charge, same]
  · rw [unit, built.unit_total mem]

end Built

/-- **Ranking.**  A schedule has a slot for each point, in the order of
positions.  Ranks count the slots that cost less, and so they order slots as
totals do; the extremes are the earliest slots of the lowest and the highest
total. -/
theorem build_ranking {c : Contract} {s : Publication} {schedule : Schedule}
    (h : build c s = .ok schedule) :
    schedule.slots.length = s.points.length ∧
    (∀ k slot, schedule.slots[k]? = some slot →
      ∃ point ∈ s.points, point.position = k + 1 ∧ SlotFor c s schedule point slot) ∧
    (∀ slot ∈ schedule.slots,
      slot.rank = 1 + schedule.slots.countP fun other => other.charge < slot.charge) ∧
    (∀ slot ∈ schedule.slots, 1 ≤ slot.rank ∧ slot.rank ≤ s.points.length) ∧
    (∀ a ∈ schedule.slots, ∀ b ∈ schedule.slots,
      (a.rank ≤ b.rank ↔ a.charge ≤ b.charge) ∧ (a.rank = b.rank ↔ a.charge = b.charge)) ∧
    (schedule.slots.map Slot.rank).toFinset.card =
      (schedule.slots.map Slot.charge).toFinset.card ∧
    (∃ slot, schedule.cheapest? = some slot ∧
      slot.IsFirst schedule.slots (fun slot =>
        ∀ other ∈ schedule.slots, slot.charge ≤ other.charge) ∧
      schedule.statistics.min.value.toRat = slot.charge ∧
        schedule.statistics.min.unit = slot.total.unit) ∧
    (∃ slot, schedule.mostExpensive? = some slot ∧
      slot.IsFirst schedule.slots (fun slot =>
        ∀ other ∈ schedule.slots, other.charge ≤ slot.charge) ∧
      schedule.statistics.max.value.toRat = slot.charge ∧
        schedule.statistics.max.unit = slot.total.unit) := by
  have built := built_of_build h
  refine ⟨built.length_slots, fun k slot here => built.exists_point here,
    fun slot mem => built.rank_eq mem, ?_, ?_,
    built.card_ranks, built.cheapest_isFirst, built.mostExpensive_isFirst⟩
  · intro slot mem
    rw [← built.length_slots]
    exact built.rank_bounds mem
  · intro a ha b hb
    exact ⟨built.rank_le_rank_iff ha hb, built.rank_eq_rank_iff ha hb⟩

/-- Three hours have ranks from one to three. -/
theorem build_ranking_threeHours : ∃ schedule,
    build .twoRates .threeHours = .ok schedule ∧ schedule.slots.length = 3 ∧
      ∀ slot ∈ schedule.slots, 1 ≤ slot.rank ∧ slot.rank ≤ 3 := by
  obtain ⟨schedule, h⟩ := exists_threeHours
  obtain ⟨length, -, -, bounds, -⟩ := build_ranking h
  exact ⟨schedule, h, length, bounds⟩

end Schedule

end Tariff
