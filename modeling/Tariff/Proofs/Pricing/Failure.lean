import Tariff.Proofs.Measure.Failure
import Tariff.Proofs.Pricing.Course
import Tariff.Proofs.Time.Instant

/-!
# How the steps of a build fail

Each step of a build can go wrong in ways of its own.  Once it is known that units
convert, that rates are rates of tax and that slots lie within the calendar, what is
left is arithmetic: a result without room, or a division by zero.

## Main definitions

* `PricingError.IsArithmetic` — errors of arithmetic in pricing
* `Instant.lastSecond` — the second with which the calendar ends

## Main statements

* `TaxedPrice.sum_fails` — a price with tax
* `Fees.price_fails`, `Fees.sum_fails` — the fees of a contract
* `PricedPoint.ofPoint_fails`, `Schedule.ofPoints_fails` — the prices of slots and a
  schedule made of them
* `Publication.exists_times` — the slots of a valid publication lie within the calendar

## Design notes

Whether a division by zero is possible is told from the outside: a proposition says
where it may come from, and each step adds nothing to it but its own conversion.
-/

namespace Tariff

open Outcome

/-- **Errors of arithmetic** in pricing. -/
def PricingError.IsArithmetic (possible : Prop) : PricingError → Prop
  | .measure e => e.IsArithmetic possible
  | _ => False

/-- There is no other error than these two. -/
theorem PricingError.isArithmetic_iff {possible : Prop} {e : PricingError} :
    e.IsArithmetic possible ↔
      e = .measure .overflow ∨ e = .measure .divisionByZero ∧ possible := by
  cases e <;> simp [IsArithmetic, MeasureError.IsArithmetic]

variable {possible : Prop}

/-- A measured result for which there may be no room, as a step of pricing. -/
theorem Outcome.FailsBy.priced {α : Type} {x : Measured α} (h : FailsBy (· = .overflow) x) :
    FailsBy (·.IsArithmetic possible) (Priced.ofMeasured x) :=
  .ofMeasured (h.imp fun _ => MeasureError.isArithmetic_overflow)

/-- What fails in arithmetic only succeeds or lacks room, unless it may divide by zero. -/
theorem Outcome.FailsBy.overflow {α : Type} {x : Priced α}
    (h : FailsBy (·.IsArithmetic possible) x) (never : ¬ possible) :
    (∃ a, x = .ok a) ∨ x = .error (.measure .overflow) := by
  rcases h.cases with ok | ⟨e, fails, arithmetic⟩
  · exact .inl ok
  · rcases PricingError.isArithmetic_iff.mp arithmetic with rfl | ⟨-, zero⟩
    · exact .inr fails
    · exact absurd zero never

/-! ## Prices with tax -/

namespace TaxedPrice

variable {t : TaxedPrice} {target : MeasureUnit} {rate : Quantity} {p : Precision}

/-- **A price with tax** lacks nothing but room when the tax is converted. -/
theorem sum_fails (unit : t.unit = target) (taxed : t.taxRate = rate)
    (convertible : FailsBy (· = .overflow) ((target.multiply rate.unit).conversionTo target))
    (source : (target.multiply rate.unit).DividesByZero target → possible) (p : Precision) :
    FailsBy (·.IsArithmetic possible) (t.sum p) := by
  subst unit taxed
  obtain ⟨rate, price | price⟩ := t
  · have taxes : FailsBy (·.IsArithmetic possible) (taxOnAmount price rate p) := by
      refine FailsBy.bind ((Quantity.multiply_fails price rate p).imp fun _ =>
        MeasureError.isArithmetic_overflow) ?_
      intro product hproduct
      obtain ⟨_, -, rfl⟩ := Quantity.multiply_eq_ok.mp hproduct
      exact (Quantity.convert_fails convertible p).imp fun e arithmetic => arithmetic.imp source
    refine FailsBy.bind (.ofMeasured taxes) ?_
    intro tax htax
    exact (Quantity.add_fails (unit_taxOnAmount (ofMeasured_eq_ok.mp htax)) p).priced
  · exact .ok price

end TaxedPrice

/-! ## Fees -/

namespace Fees

variable {c : Contract} {target : MeasureUnit} {fee : Option Quantity} {rate : Quantity}
  {fees : Fees} {p : Precision}

/-- **A fee** lacks nothing but room when its unit converts. -/
theorem price_fails (check : TaxedPrice.checkRate rate = .ok ⟨⟩)
    (converts : ∀ q, fee = some q → ∃ conversion, q.unit.conversionTo target = .ok conversion)
    (source : ∀ q, fee = some q → q.unit.DividesByZero target → possible) :
    FailsBy (·.IsArithmetic possible) (price c target fee rate) := by
  have taxed : ∀ given, FailsBy (·.IsArithmetic possible)
      (TaxedPrice.of (if c.feesIncludeTax then .sum given else .amount given) rate) :=
    fun given => .of_eq_ok (TaxedPrice.of_eq_ok.mpr ⟨check, rfl⟩)
  cases fee with
  | none => exact taxed _
  | some q =>
      obtain ⟨conversion, hconversion⟩ := converts q rfl
      refine FailsBy.bind (.ofMeasured ?_) fun given _ => taxed given
      refine (Quantity.convert_fails (.of_eq_ok hconversion) c.precision).imp ?_
      exact fun e arithmetic => arithmetic.imp (source q rfl)

/-- **All fees together** lack nothing but room when each of them does. -/
theorem sum_fails
    (units : fees.transfer.unit = target ∧ fees.tax.unit = target ∧ fees.margin.unit = target)
    (transfer : FailsBy (·.IsArithmetic possible) (fees.transfer.sum p))
    (tax : FailsBy (·.IsArithmetic possible) (fees.tax.sum p))
    (margin : FailsBy (·.IsArithmetic possible) (fees.margin.sum p)) :
    FailsBy (·.IsArithmetic possible) (fees.sum p) := by
  refine transfer.bind fun first hfirst => ?_
  refine tax.bind fun second hsecond => ?_
  have firstUnit := (TaxedPrice.unit_sum hfirst).trans units.1
  have secondUnit := (TaxedPrice.unit_sum hsecond).trans units.2.1
  refine FailsBy.bind (Quantity.add_fails (secondUnit.trans firstUnit.symm) p).priced ?_
  intro both hboth
  obtain ⟨-, _, -, _, -, eq⟩ := Quantity.add_eq_ok.mp (ofMeasured_eq_ok.mp hboth)
  have bothUnit : both.unit = target := by rw [eq, firstUnit]
  refine margin.bind fun third hthird => ?_
  have thirdUnit := (TaxedPrice.unit_sum hthird).trans units.2.2
  exact (Quantity.add_fails (thirdUnit.trans bothUnit.symm) p).priced

end Fees

/-! ## The times of slots -/

/-- The second with which the calendar ends. -/
def Instant.lastSecond : Int := 8210266876799

/-- Some minutes later there is an instant, as long as the calendar goes on. -/
theorem Instant.exists_plusMinutes? {t : Instant} {minutes : ℕ}
    (room : t.second + minutes * 60 ≤ lastSecond) :
    ∃ u, t.plusMinutes? minutes = some u ∧ u.second = t.second + minutes * 60 := by
  rw [plusMinutes?]
  split
  · next none => exact ⟨t, rfl, by omega⟩
  · have low := t.second_ge
    have bounds : -8334601228800 ≤ t.second + minutes * 60 ∧
        t.second + minutes * 60 ≤ 8210266876799 ∧ t.nano % nanosPerSecond < 2000000000 := by
      refine ⟨by omega, room, ?_⟩
      unfold nanosPerSecond
      omega
    rw [ofParts?, dif_pos bounds]
    exact ⟨_, rfl, rfl⟩

/-- Whole minutes between two instants go no further than the second instant, and with a
leap second at its end one second further. -/
theorem Instant.second_le_of_nanosUntil {t u : Instant} {minutes : ℕ}
    (h : t.nanosUntil u = (minutes * nanosPerMinute : ℕ)) :
    t.second + minutes * 60 ≤ u.second + 1 ∧
      (u.isLeap = false → t.second + minutes * 60 ≤ u.second) := by
  have first := t.nano_lt
  have second := u.nano_lt
  simp only [isLeap_eq_false_iff]
  unfold nanosUntil at h
  dsimp only at h
  simp only [isLeap, decide_eq_true_eq] at h
  unfold nanos nanosPerMinute nanosPerSecond at h
  split at h
  · omega
  · split at h <;> omega

/-- **The slots of a valid publication** lie within the calendar, unless it ends in the
leap second behind the last one. -/
theorem Publication.exists_times {s : Publication} {point : PricePoint}
    (valid : s.validate = .ok ⟨⟩) (room : ∀ slots, s.slotCount = .ok slots → slots ≤ maxPosition)
    (calendar : s.stop.isLeap = true → s.stop.second < Instant.lastSecond)
    (mem : point ∈ s.points) :
    ∃ start stop, s.slotStart? point.position = some start ∧
      start.plusMinutes? s.slotLength.minutes = some stop := by
  obtain ⟨slots, count, perm⟩ := validate_eq_ok.mp valid
  obtain ⟨low, high⟩ := (perm_range'_iff.mp perm).1 _ (List.mem_map_of_mem mem)
  obtain ⟨-, -, span⟩ := slotCount_eq_ok.mp count
  have bound := room slots count
  -- all slots together end with the calendar at the latest
  have whole : s.start.nanosUntil s.stop =
      ((slots * s.slotLength.minutes * nanosPerMinute : ℕ) : ℤ) := by
    rw [span, SlotLength.nanos, Nat.mul_assoc]
    exact (Nat.cast_mul _ _).symm
  obtain ⟨further, exact⟩ := Instant.second_le_of_nanosUntil whole
  have last : s.start.second + (slots * s.slotLength.minutes : ℕ) * 60 ≤ Instant.lastSecond := by
    have latest : s.stop.second ≤ Instant.lastSecond := s.stop.second_le
    cases leap : s.stop.isLeap with
    | false => exact (exact leap).trans latest
    | true => exact further.trans (calendar leap)
  -- so does the slot at hand
  have upTo : (point.position - 1) * s.slotLength.minutes + s.slotLength.minutes ≤
      slots * s.slotLength.minutes := by
    rw [← Nat.succ_mul]
    exact Nat.mul_le_mul_right _ (by omega)
  have before : s.start.second + ((point.position - 1) * s.slotLength.minutes : ℕ) * 60 ≤
      Instant.lastSecond := by
    omega
  obtain ⟨start, starts, second⟩ := Instant.exists_plusMinutes? before
  have after : start.second + s.slotLength.minutes * 60 ≤ Instant.lastSecond := by omega
  obtain ⟨stop, stops, -⟩ := Instant.exists_plusMinutes? after
  refine ⟨start, stop, ?_, stops⟩
  rw [slotStart?, if_pos ⟨low, high.trans bound⟩, starts]

/-! ## Slots and their statistics -/

/-- **The price of a slot** lacks nothing but room. -/
theorem PricedPoint.ofPoint_fails {c : Contract} {target : MeasureUnit} {conversion : Conversion}
    {fees : Quantity} (nonzero : ¬ conversion.denominator.isZero = true)
    (check : TaxedPrice.checkRate c.effectiveSellerRate = .ok ⟨⟩) (unit : fees.unit = target)
    (convertible : FailsBy (· = .overflow)
      ((target.multiply c.effectiveSellerRate.unit).conversionTo target))
    (source : (target.multiply c.effectiveSellerRate.unit).DividesByZero target → possible)
    (point : PricePoint) :
    FailsBy (·.IsArithmetic possible) (ofPoint c target conversion fees point) := by
  have converted : FailsBy (·.IsArithmetic possible)
      (conversion.apply c.precision point.price) :=
    (conversion.apply_fails _ _).imp fun e arithmetic =>
      arithmetic.imp fun zero => absurd zero nonzero
  refine FailsBy.bind (.ofMeasured converted) fun value _ => ?_
  let spot : TaxedPrice := ⟨c.effectiveSellerRate, .amount ⟨value, target⟩⟩
  have taxed : TaxedPrice.ofAmount ⟨value, target⟩ c.effectiveSellerRate = .ok spot :=
    TaxedPrice.of_eq_ok.mpr ⟨check, rfl⟩
  refine .after taxed ?_
  refine FailsBy.bind (TaxedPrice.sum_fails (t := spot) rfl rfl convertible source c.precision) ?_
  intro sum hsum
  refine FailsBy.bind (Quantity.add_fails ?_ c.precision).priced fun _ _ => .pure _
  rw [TaxedPrice.unit_sum hsum, unit]
  rfl

namespace Schedule

/-- The mean of at least one number lacks nothing but room. -/
theorem mean_fails {values : List Decimal} (nonempty : values ≠ []) (p : Precision) :
    FailsBy (· = .overflow) (mean p values) := by
  refine (FailsBy.orOverflow _).bind fun sum _ => ?_
  refine (FailsBy.orOverflow _).bind ?_
  intro count hcount
  refine Precision.divide_fails ?_ sum
  rw [Decimal.isZero_iff, Decimal.toRat_of_ofParts? (orOverflow_eq_ok.mp hcount)]
  simpa using nonempty

/-- So does the place between the extremes. -/
theorem normalize_fails (p : Precision) (min range total : Decimal) :
    FailsBy (· = .overflow) (normalize p min range total) := by
  rw [normalize]
  split
  · exact .ok _
  · next nonzero =>
      refine (Precision.subtract_fails total min).bind fun above _ => ?_
      exact (Precision.divide_fails nonzero above).bind fun _ _ => .pure _

/-- **A schedule of priced points** lacks nothing but room when these have times. -/
theorem ofPoints_fails {c : Contract} {s : Publication} {target : MeasureUnit} {fees : Fees}
    {points : List PricedPoint} (nonempty : points ≠ [])
    (times : ∀ point ∈ points, ∃ start stop, s.slotStart? point.position = some start ∧
      start.plusMinutes? s.slotLength.minutes = some stop) :
    FailsBy (·.IsArithmetic possible) (ofPoints c s target fees points) := by
  have totals : points.map (fun point => point.total.value) ≠ [] := by simpa using nonempty
  refine .after (extremes_of_ne_nil (ascending_ne_nil totals)) ?_
  refine FailsBy.bind (mean_fails totals c.precision).priced fun average _ => ?_
  refine FailsBy.bind (Precision.subtract_fails _ _).priced fun range _ => ?_
  refine FailsBy.bind (.mapM ?_) fun _ _ => .pure _
  intro point mem
  refine FailsBy.bind (normalize_fails c.precision _ range _).priced fun normalized _ => ?_
  obtain ⟨start, stop, starts, stops⟩ := times point mem
  exact .after (slotTimes_eq_ok.mpr ⟨starts, stops⟩) (.pure _)

end Schedule

end Tariff
