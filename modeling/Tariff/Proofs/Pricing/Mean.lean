import Tariff.Proofs.Pricing.Ranking

/-!
# The mean of the totals

The totals are summed up one after the other, and a sum whose digits have no room
is stored with fewer of them.  The mean is the rounded quotient of the last sum.

## Main definitions

* `HeldTimes` — a number whose multiples are stored without loss

## Main statements

* `between_of_add?`, `between_of_sumFrom?` — sums between multiples of two bounds
* `between_of_mean` — a mean between two bounds
* `Schedule.build_mean` — the mean of a schedule lies between its extremes as long
  as its sums have room
* `Schedule.build_mean_nineHours` — and need not do so where they have none

## Design notes

Storing keeps the order of numbers, so that a sum of totals stays above the sum of
as many lowest totals, as long as the latter is stored without loss.  That is a
question of digits: so many times a number of some digits must have room.  With
twenty-five digits there is room for all minutes of a day, but with all twenty-eight
for seven slots only.
-/

namespace Tariff

variable {low high : ℚ} {k : ℕ}

/-- **Numbers that add up without loss**: up to some number of times they are stored
as they are. -/
def HeldTimes (count : ℕ) (bound : ℚ) : Prop :=
  ∀ k : ℕ, k ≤ count → RoundingMode.halfEven.stored (k * bound) maxPlaces = k * bound

/-- **One more summand** between two bounds keeps a sum between their multiples. -/
theorem between_of_add? {a b sum : Decimal} {count : ℕ} (holdsLow : HeldTimes count low)
    (holdsHigh : HeldTimes count high) (more : k + 1 ≤ count)
    (ha : k * low ≤ a.toRat ∧ a.toRat ≤ k * high) (hb : low ≤ b.toRat ∧ b.toRat ≤ high)
    (h : a.add? b = some sum) :
    (k + 1 : ℕ) * low ≤ sum.toRat ∧ sum.toRat ≤ (k + 1 : ℕ) * high := by
  have order : Monotone fun x => RoundingMode.halfEven.stored x maxPlaces :=
    RoundingMode.stored_mono rfl maxPlaces
  rw [Decimal.toRat_add? h, ← holdsLow _ more, ← holdsHigh _ more]
  push_cast
  constructor
  · exact order (by linarith [ha.1, hb.1])
  · exact order (by linarith [ha.2, hb.2])

/-- **A sum of numbers between two bounds** lies between their multiples. -/
theorem between_of_sumFrom? {count : ℕ} (holdsLow : HeldTimes count low)
    (holdsHigh : HeldTimes count high) {values : List Decimal}
    (within : ∀ d ∈ values, low ≤ d.toRat ∧ d.toRat ≤ high) (length : k + values.length ≤ count)
    {start sum : Decimal} (hstart : k * low ≤ start.toRat ∧ start.toRat ≤ k * high)
    (h : sumFrom? start values = some sum) :
    (k + values.length : ℕ) * low ≤ sum.toRat ∧ sum.toRat ≤ (k + values.length : ℕ) * high := by
  induction values generalizing start k with
  | nil =>
      rw [sumFrom?] at h
      exact Option.some.inj h ▸ hstart
  | cons d rest ih =>
      rw [sumFrom?] at h
      obtain ⟨next, hnext, h⟩ := Option.bind_eq_some_iff.mp h
      rw [List.length_cons, ← Nat.add_assoc, Nat.add_right_comm] at length ⊢
      have step := between_of_add? holdsLow holdsHigh (by omega) hstart
        (within d List.mem_cons_self) hnext
      exact ih (fun other mem => within other (List.mem_cons_of_mem _ mem)) length step h

/-- **A mean of numbers between two bounds** lies between them, if the bounds are kept
by the precision and so many times each of them has room. -/
theorem between_of_mean {p : Precision} {values : List Decimal} {average : Decimal}
    {lowest highest : Decimal} (nonempty : values ≠ [])
    (within : ∀ d ∈ values, lowest.toRat ≤ d.toRat ∧ d.toRat ≤ highest.toRat)
    (digits : HasDigits p.digits lowest.toRat ∧ HasDigits p.digits highest.toRat)
    (held : HeldTimes values.length lowest.toRat ∧ HeldTimes values.length highest.toRat)
    (h : mean p values = .ok average) :
    lowest.toRat ≤ average.toRat ∧ average.toRat ≤ highest.toRat := by
  obtain ⟨sum, hsum, h⟩ := Outcome.bind_eq_ok.mp h
  obtain ⟨count, hcount, h⟩ := Outcome.bind_eq_ok.mp h
  rw [Outcome.orOverflow_eq_ok] at hsum hcount
  have positive : (0 : ℚ) < values.length := by exact_mod_cast List.length_pos_iff.mpr nonempty
  have value : count.toRat = values.length := by
    rw [Decimal.toRat_of_ofParts? hcount]
    simp
  have between := between_of_sumFrom? held.1 held.2 within (k := 0) (by omega) (by simp) hsum
  rw [Nat.zero_add] at between
  -- what is kept of a quotient stands in the order of quotients, and the bounds are kept
  have order : Monotone fun x => p.mode.toDigits p.digits
      ((Decimal.quotientMode sum count).stored x maxPlaces) :=
    (p.mode.toDigits_mono p.digits_pos).comp
      (RoundingMode.stored_mono (Decimal.isNearest_quotientMode _ _) maxPlaces)
  have kept : ∀ d : Decimal, HasDigits p.digits d.toRat → p.mode.toDigits p.digits
      ((Decimal.quotientMode sum count).stored d.toRat maxPlaces) = d.toRat := by
    intro d digits
    rw [Decimal.stored_toRat, p.mode.toDigits_of_hasDigits digits]
  rw [Precision.toRat_divide_by h, value, ← kept _ digits.1, ← kept _ digits.2]
  constructor
  · exact order ((le_div_iff₀ positive).mpr (by linarith [between.1]))
  · exact order ((div_le_iff₀ positive).mpr (by linarith [between.2]))

namespace Schedule

variable {c : Contract} {s : Publication} {schedule : Schedule} {slot : Slot}

/-- **A total has no more digits** than the precision keeps. -/
theorem Built.hasDigits_charge (built : Built c s schedule) (mem : slot ∈ schedule.slots) :
    HasDigits c.precision.digits slot.charge := by
  obtain ⟨k, here⟩ := List.mem_iff_getElem?.mp mem
  obtain ⟨point, -, -, slotFor⟩ := built.exists_point here
  obtain ⟨-, fees, sum, -, -, charge⟩ := slotFor.toRat_total built
  rw [charge, Precision.keep]
  exact RoundingMode.hasDigits_toDigits _ c.precision.digits_pos _

/-- **The mean lies between the extremes** if so many times as there are slots a
number with as many digits as the totals has room.  With as many digits as the
precision keeps they always have so many (`Built.hasDigits_charge`). -/
theorem build_mean (h : build c s = .ok schedule) {digits : ℕ}
    (few : ∀ slot ∈ schedule.slots, HasDigits digits slot.charge)
    (room : schedule.slots.length * 10 ^ digits ≤ mantissaLimit) :
    schedule.statistics.min.value.toRat ≤ schedule.statistics.average.value.toRat ∧
      schedule.statistics.average.value.toRat ≤ schedule.statistics.max.value.toRat := by
  have built := built_of_build h
  obtain ⟨average, haverage, statistics⟩ := built.statistics
  have nonempty : schedule.totals ≠ [] := mt List.map_eq_nil_iff.mp built.slots_ne_nil
  obtain ⟨⟨memLow, least⟩, memHigh, greatest⟩ := extremes_ascending nonempty
  have length : schedule.totals.length = schedule.slots.length := List.length_map _
  have digitsOf : ∀ total ∈ schedule.totals,
      HasDigits c.precision.digits total.toRat ∧ HasDigits digits total.toRat := by
    intro total mem
    obtain ⟨slot, here, rfl⟩ := List.mem_map.mp mem
    exact ⟨built.hasDigits_charge here, few slot here⟩
  have held : ∀ total ∈ schedule.totals, HeldTimes schedule.totals.length total.toRat := by
    intro total mem k le
    refine RoundingMode.stored_multiple _ (digitsOf total mem).2 total.onGrid_toRat ?_
    exact (Nat.mul_le_mul_right _ (le.trans length.le)).trans room
  have between : schedule.lowest.toRat ≤ average.toRat ∧ average.toRat ≤ schedule.highest.toRat :=
    between_of_mean nonempty (fun d mem => ⟨least d mem, greatest d mem⟩)
      ⟨(digitsOf _ memLow).1, (digitsOf _ memHigh).1⟩ ⟨held _ memLow, held _ memHigh⟩ haverage
  rw [statistics]
  simpa only [Quantity.strip, Decimal.toRat_normalize] using between

/-- Three totals of sixteen digits have room. -/
theorem build_mean_threeHours : ∃ schedule, build .twoRates .threeHours = .ok schedule ∧
    schedule.statistics.min.value.toRat ≤ schedule.statistics.average.value.toRat ∧
      schedule.statistics.average.value.toRat ≤ schedule.statistics.max.value.toRat := by
  obtain ⟨schedule, h⟩ := exists_threeHours
  have built := built_of_build h
  have length : schedule.slots.length = 3 := built.length_slots
  have room : schedule.slots.length * 10 ^ Contract.twoRates.precision.digits ≤ mantissaLimit := by
    rw [length]
    decide
  exact ⟨schedule, h, build_mean h (fun slot mem => built.hasDigits_charge mem) room⟩

end Schedule

/-! ## Sums without room

Nine totals of twenty-eight digits have no room for their last digit. -/

/-- A contract without fees that keeps all digits. -/
def Contract.allDigits : Contract where
  energyUnit := "MWh"
  useSubunit := false
  precision := .full

/-- One price of twenty-eight digits for nine hours. -/
def Publication.nineHours : Publication :=
  { Publication.threeHours with
    stop := ⟨32400, 0, by decide, by decide, Publication.threeHours.stop.nano_lt⟩
    points := (List.range' 1 9).map fun position =>
      ⟨position, .ofDigits 9999999999999999999999999994 27⟩ }

/-- **All hours cost the same, and less on average.** -/
theorem Schedule.build_mean_nineHours : ∃ schedule,
    build .allDigits .nineHours = .ok schedule ∧
      (∀ slot ∈ schedule.slots, slot.charge = 9.999999999999999999999999994) ∧
        schedule.statistics.min.value.toRat = 9.999999999999999999999999994 ∧
          schedule.statistics.average.value.toRat = 9.999999999999999999999999993 ∧
            schedule.statistics.average.value.toRat < schedule.statistics.min.value.toRat := by
  have facts : (build .allDigits .nineHours).toOption.map (fun schedule =>
      (schedule.slots.all (·.charge = 9.999999999999999999999999994),
        schedule.statistics.min.value.toRat, schedule.statistics.average.value.toRat)) =
      some (true, 9.999999999999999999999999994, 9.999999999999999999999999993) := by
    decide +kernel
  cases h : build .allDigits .nineHours with
  | error fault =>
      rw [h] at facts
      cases facts
  | ok schedule =>
      rw [h] at facts
      simp only [Except.toOption, Option.map_some, Option.some.injEq, Prod.mk.injEq] at facts
      obtain ⟨charges, min, average⟩ := facts
      have less : schedule.statistics.average.value.toRat < schedule.statistics.min.value.toRat := by
        rw [min, average]
        norm_num
      exact ⟨schedule, rfl, by simpa using charges, min, average, less⟩

end Tariff
