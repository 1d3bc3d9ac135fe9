import Tariff.Proofs.Pricing.Monotone
import Tariff.Proofs.Pricing.Terms

/-!
# Schedules do not depend on how numbers are written

Prices, fees and rates may be written with any number of zeros at their end.  Building
is followed here on two writings of the same terms, from the first price to the last
statistic.

## Main definitions

* `Schedule.quotients` — the quotients that building takes in fees and taxes
* `Slot.Alike`, `Schedule.Alike` — schedules whose numbers are the same

## Main statements

* `normalize_alike`, `mean_alike` — the calculations on totals
* `Schedule.build_alike` — the schedules of two writings
* `Schedule.dividesHalfEven_of_plain` — a condition on the units of fees and rates

## Design notes

All steps but quotients depend on numbers alone.  Building takes quotients in five
places.  Three of them have a divisor of at most 64 bits or a quotient of at most one:
spot prices are converted between units of prices, the mean is divided by a number of
slots, and the place of a total by the range that it lies in.  Fees and taxes may be
told in units for which the divisor is wider; there half-even division is asked for, under
a precision of all 28 digits.
-/

namespace Tariff

open Outcome

/-! ## Totals -/

section Totals

variable {p : Precision} {values values' : List Decimal}

theorem sumFrom?_alike {sum sum' : Decimal} (start : sum.Alike sum')
    (h : List.Forall₂ Decimal.Alike values values') :
    Option.Rel Decimal.Alike (sumFrom? sum values) (sumFrom? sum' values') := by
  induction h generalizing sum sum' with
  | nil => exact .some start
  | cons head _ ih => exact rel_bind (Decimal.add?_alike start head) fun _ _ next => ih next

/-- **The mean** of as many values as a divisor of 64 bits can count. -/
theorem mean_alike (few : values.length < Decimal.wideFrom)
    (h : List.Forall₂ Decimal.Alike values values') :
    Agree Decimal.Alike (mean p values) (mean p values') := by
  refine (Agree.orOverflow (sumFrom?_alike (.refl _) h)).bind ?_
  intro sum sum' _ _ sums
  rw [← h.length_eq]
  refine (Agree.refl _).bind ?_
  rintro count _ hcount - rfl
  have mantissa := (Decimal.ofParts?_eq_some_iff.mp (orOverflow_eq_ok.mp hcount)).2.1
  have narrow : count.mantissa < Decimal.wideFrom := mantissa ▸ few
  exact Precision.divide_alike sums (.refl _) (Decimal.quotientHalfEven_of_lt _ narrow)
    (Decimal.quotientHalfEven_of_lt _ narrow)

theorem ascending_alike (h : List.Forall₂ Decimal.Alike values values') :
    List.Forall₂ Decimal.Alike (ascending values) (ascending values') := by
  refine sortBy_forall₂ ?_ h
  intro a b x y ha hb
  exact Decimal.below_congr hb ha

theorem getLastD_alike {d d' : Decimal} (hd : d.Alike d')
    (h : List.Forall₂ Decimal.Alike values values') :
    (values.getLastD d).Alike (values'.getLastD d') := by
  induction h generalizing d d' with
  | nil => exact hd
  | cons head _ ih =>
      rw [List.getLastD_cons, List.getLastD_cons]
      exact ih head

/-- The first and the last of the sorted totals. -/
theorem extremes_alike (h : List.Forall₂ Decimal.Alike values values') :
    Agree (fun a b => a.1.Alike b.1 ∧ a.2.Alike b.2)
      (Schedule.extremes values) (Schedule.extremes values') := by
  have highs := getLastD_alike (.refl .zero) h
  cases h with
  | nil => exact .error _ _
  | cons head _ =>
      rw [Schedule.extremes_of_ne_nil (List.cons_ne_nil _ _),
        Schedule.extremes_of_ne_nil (List.cons_ne_nil _ _)]
      exact .ok ⟨head, highs⟩

theorem rankAmong_alike {total total' : Decimal} (h : List.Forall₂ Decimal.Alike values values')
    (htotal : total.Alike total') : rankAmong values total = rankAmong values' total' := by
  rw [rankAmong, rankAmong]
  induction h with
  | nil => rfl
  | cons head _ ih =>
      rw [List.takeWhile_cons, List.takeWhile_cons, Decimal.below_congr head htotal]
      split
      · simpa using ih
      · rfl

theorem clampToUnit_alike {d d' : Decimal} (h : d.Alike d') :
    (clampToUnit d).Alike (clampToUnit d') := by
  rw [Decimal.Alike, toRat_clampToUnit, toRat_clampToUnit, h]

/-- **The place of a total** within the range. -/
theorem normalize_alike {low low' range range' total total' : Decimal} (hlow : low.Alike low')
    (hrange : range.Alike range') (htotal : total.Alike total')
    (above : low.toRat ≤ total.toRat) (within : p.keep (total.toRat - low.toRat) ≤ range.toRat) :
    Agree Decimal.Alike (normalize p low range total) (normalize p low' range' total') := by
  rw [normalize, normalize, ← Decimal.isZero_congr hrange]
  split
  · exact .ok (.refl _)
  · next nonzero =>
      refine (Precision.subtract_alike htotal hlow).bind ?_
      intro difference difference' hdifference hdifference' differences
      have even := quotientHalfEven_of_within above within nonzero hdifference
      rw [Decimal.isZero_congr hrange] at nonzero
      rw [hlow, htotal] at above within
      rw [hrange] at within
      have even' := quotientHalfEven_of_within above within nonzero hdifference'
      refine (Precision.divide_alike differences hrange even even').bind ?_
      intro ratio ratio' _ _ ratios
      exact .ok (clampToUnit_alike (Precision.roundPlaces_alike (by decide) ratios))

end Totals

/-! ## Slots -/

/-- Priced points of one position whose prices and totals denote the same numbers. -/
structure PricedPoint.Alike (p : Precision) (a b : PricedPoint) : Prop where
  position : a.position = b.position
  spot : TaxedPrice.SidesAlike p a.spot b.spot
  total : a.total.Alike b.total

/-- **Slots whose numbers are the same**: at one time and of one rank, with prices,
totals and places that denote the same numbers. -/
structure Slot.Alike (p : Precision) (a b : Slot) : Prop where
  start : a.start = b.start
  stop : a.stop = b.stop
  spot : TaxedPrice.SidesAlike p a.spot b.spot
  total : a.total.Alike b.total
  rank : a.rank = b.rank
  normalized : a.normalized.Alike b.normalized

/-- **A point is priced** as its other writing is. -/
theorem PricedPoint.ofPoint_alike {c c' : Contract} {target : MeasureUnit} {conversion : Conversion}
    {fees fees' : Quantity} {point point' : PricePoint} (hc : c.Alike c')
    (hfees : fees.Alike fees') (unit : fees.unit = target) (hpoint : point.Alike point')
    (narrow : conversion.denominator.mantissa < Decimal.wideFrom)
    (even : ∀ value, conversion.apply c.precision point.price = .ok value →
      c.precision.DividesHalfEven (TaxedPrice.quotients
        ⟨c.effectiveSellerRate, .amount ⟨value, target⟩⟩ c.precision))
    (even' : ∀ value, conversion.apply c'.precision point'.price = .ok value →
      c'.precision.DividesHalfEven (TaxedPrice.quotients
        ⟨c'.effectiveSellerRate, .amount ⟨value, target⟩⟩ c'.precision)) :
    Agree (Alike c.precision) (ofPoint c target conversion fees point)
      (ofPoint c' target conversion fees' point') := by
  rw [← hc.precision] at even'
  rw [ofPoint, ofPoint, ← hc.precision]
  refine (Conversion.apply_alike hpoint.price (Conversion.dividesHalfEven_of_lt narrow _ _)
    (Conversion.dividesHalfEven_of_lt narrow _ _)).ofMeasured.bind ?_
  intro value value' hvalue hvalue' values
  have amounts : Quantity.Alike ⟨value, target⟩ ⟨value', target⟩ := ⟨values, rfl⟩
  have basis : Basis.Alike (.amount ⟨value, target⟩) (.amount ⟨value', target⟩) := amounts
  refine (TaxedPrice.of_alike basis hc.effectiveSellerRate).bind ?_
  intro spot spot' hspot hspot' _
  obtain ⟨-, rfl⟩ := TaxedPrice.of_eq_ok.mp hspot
  obtain ⟨-, rfl⟩ := TaxedPrice.of_eq_ok.mp hspot'
  have sides := TaxedPrice.sidesAlike amounts hc.effectiveSellerRate
    (even _ (ofMeasured_eq_ok.mp hvalue)) (even' _ (ofMeasured_eq_ok.mp hvalue'))
  refine sides.sum.bind ?_
  intro sum sum' hsum _ sums
  have sameUnit : sum.unit = fees.unit := (TaxedPrice.unit_sum hsum).trans unit.symm
  exact (Quantity.add_alike hfees sums sameUnit).ofMeasured.bind fun _ _ _ _ totals =>
    .ok ⟨hpoint.position, sides, totals⟩

namespace Schedule

variable {c c' : Contract} {s s' : Publication}

/-- **A slot** of a total within the range is that of its other writing. -/
theorem slotOf_alike {p : Precision} {sorted sorted' : List Decimal}
    {low low' range range' : Decimal} {point point' : PricedPoint} (hs : s.Alike s')
    (hsorted : List.Forall₂ Decimal.Alike sorted sorted') (hlow : low.Alike low')
    (hrange : range.Alike range') (hpoint : point.Alike p point')
    (above : low.toRat ≤ point.total.value.toRat)
    (within : p.keep (point.total.value.toRat - low.toRat) ≤ range.toRat) :
    Agree (Slot.Alike p) (slotOf s p sorted low range point)
      (slotOf s' p sorted' low' range' point') := by
  have total := hpoint.total.value
  have times : slotTimes s' point'.position = slotTimes s point.position := by
    rw [slotTimes, slotTimes, ← hs.slotStart?, ← hs.slotLength, ← hpoint.position]
  rw [slotOf, slotOf, times, rankAmong_alike hsorted total]
  refine (normalize_alike hlow hrange total above within).ofMeasured.bind ?_
  intro place place' _ _ places
  refine (Agree.refl _).bind ?_
  rintro ⟨start, stop⟩ _ - - rfl
  exact .ok ⟨rfl, rfl, hpoint.spot, hpoint.total, rfl, places⟩

/-- **Schedules whose numbers are the same.** -/
structure Alike (schedule schedule' : Schedule) : Prop where
  created : schedule.created = schedule'.created
  start : schedule.start = schedule'.start
  stop : schedule.stop = schedule'.stop
  zone : schedule.zone = schedule'.zone
  slotLength : schedule.slotLength = schedule'.slotLength
  domain : schedule.domain = schedule'.domain
  unit : schedule.unit = schedule'.unit
  precision : schedule.precision = schedule'.precision
  fees : schedule.fees.Alike schedule'.fees
  min : schedule.statistics.min.Alike schedule'.statistics.min
  average : schedule.statistics.average.Alike schedule'.statistics.average
  max : schedule.statistics.max.Alike schedule'.statistics.max
  slots : List.Forall₂ (Slot.Alike schedule.precision) schedule.slots schedule'.slots

/-- **The schedule of priced points.** -/
theorem ofPoints_alike {target : MeasureUnit} {fees fees' : Fees}
    {points points' : List PricedPoint}
    (hc : c.Alike c') (hs : s.Alike s') (hfees : fees.Alike fees')
    (hpoints : List.Forall₂ (PricedPoint.Alike c.precision) points points')
    (few : points.length < Decimal.wideFrom) :
    Agree Alike (ofPoints c s target fees points) (ofPoints c' s' target fees' points') := by
  have totals : List.Forall₂ Decimal.Alike (points.map fun point => point.total.value)
      (points'.map fun point => point.total.value) := by
    rw [List.forall₂_map_left_iff, List.forall₂_map_right_iff]
    exact hpoints.imp fun _ _ alike => alike.total.value
  have sorted := ascending_alike totals
  have means := mean_alike (p := c.precision) (by rwa [List.length_map]) totals
  rw [ofPoints, ofPoints, ← hc.precision]
  refine (extremes_alike sorted).bind ?_
  rintro ⟨low, high⟩ ⟨low', high'⟩ hextremes - ⟨lows, highs⟩
  obtain ⟨some, rfl, rfl⟩ := extremes_eq_ok hextremes
  have nonempty : (points.map fun point => point.total.value) ≠ [] := by
    intro none
    rw [none] at some
    exact some rfl
  obtain ⟨⟨-, least⟩, -, greatest⟩ := extremes_ascending nonempty
  refine means.ofMeasured.bind ?_
  intro average average' _ _ averages
  refine (Precision.subtract_alike highs lows).ofMeasured.bind ?_
  intro range range' hrange _ ranges
  have slots := Agree.mapM (f := slotOf s c.precision _ _ range)
    (g := slotOf s' c.precision _ _ range') hpoints fun point point' mem _ alike => by
      have mem := List.mem_map_of_mem (f := fun point : PricedPoint => point.total.value) mem
      refine slotOf_alike hs sorted lows ranges alike (least _ mem) ?_
      rw [Precision.toRat_subtract (ofMeasured_eq_ok.mp hrange)]
      exact c.precision.keep_mono (sub_le_sub_right (greatest _ mem) _)
  refine slots.bind ?_
  intro slots slots' _ _ alike
  refine .ok ?_
  exact
    { created := hs.created, start := hs.start, stop := hs.stop, zone := hc.zone
      slotLength := hs.slotLength, domain := hs.domain, unit := rfl, precision := rfl
      fees := hfees
      min := Quantity.Alike.strip ⟨lows, rfl⟩
      average := Quantity.Alike.strip ⟨averages, rfl⟩
      max := Quantity.Alike.strip ⟨highs, rfl⟩
      slots := alike }

/-! ## Building -/

/-- The currencies of fees are checked by their units. -/
theorem checkFees_alike {target : MeasureUnit} (hc : c.Alike c') :
    Agree (· = ·) (checkFees c target) (checkFees c' target) := by
  refine .forM hc.statedFees ?_
  rintro ⟨name, fee⟩ ⟨name', fee'⟩ ⟨-, alike⟩
  exact Fees.checkCurrency_alike alike

/-- Between units of prices a conversion has a denominator of at most 64 bits. -/
theorem narrow_of_units {target source : MeasureUnit} {conversion : Conversion}
    (htarget : c.targetUnit s.currency = .ok target) (hsource : s.unit = .ok source)
    (hconversion : source.conversionTo target = .ok conversion) :
    conversion.denominator.mantissa < Decimal.wideFrom := by
  obtain ⟨_, energy, henergy, rfl⟩ := Publication.unit_eq_ok hsource
  obtain ⟨_, other, hother, rfl⟩ := Contract.targetUnit_eq_ok htarget
  exact MeasureUnit.denominator_lt_wideFrom henergy hother hconversion

/-- **The quotients that building takes in fees and taxes**: those by which fees are told in the
target unit, and those of the taxes on fees and on spot prices. -/
def quotients (c : Contract) (s : Publication) : Set (Decimal × Decimal) :=
  {q | ∃ target, c.targetUnit s.currency = .ok target ∧
    (q ∈ c.feeQuotients target ∨
      (∃ fees, Fees.ofContract c target = .ok fees ∧ q ∈ fees.quotients c.precision) ∨
      ∃ source, s.unit = .ok source ∧ ∃ point ∈ s.points, ∃ price,
        Quantity.convert ⟨point.price, source⟩ target c.precision = .ok price ∧
          q ∈ TaxedPrice.quotients ⟨c.effectiveSellerRate, .amount price⟩ c.precision)}

/-- Half-even division in building is half-even division in each of its parts. -/
theorem dividesHalfEven_parts {target : MeasureUnit}
    (even : c.precision.DividesHalfEven (quotients c s))
    (htarget : c.targetUnit s.currency = .ok target) :
    c.precision.DividesHalfEven (c.feeQuotients target) ∧
    (∀ fees, Fees.ofContract c target = .ok fees →
      c.precision.DividesHalfEven (fees.quotients c.precision)) ∧
    ∀ source, s.unit = .ok source → ∀ point ∈ s.points, ∀ price,
      Quantity.convert ⟨point.price, source⟩ target c.precision = .ok price →
        c.precision.DividesHalfEven
          (TaxedPrice.quotients ⟨c.effectiveSellerRate, .amount price⟩ c.precision) := by
  refine ⟨even.mono fun q mem => ?_, fun fees hfees => even.mono fun q mem => ?_,
    fun source hsource point among price hprice => even.mono fun q mem => ?_⟩
  · exact ⟨target, htarget, .inl mem⟩
  · exact ⟨target, htarget, .inr (.inl ⟨fees, hfees, mem⟩)⟩
  · exact ⟨target, htarget, .inr (.inr ⟨source, hsource, point, among, price, hprice, mem⟩)⟩

/-- **The writing of numbers does not matter.**  With prices, fees and rates written in
two ways, building fails for both or makes schedules whose numbers are the same. -/
theorem build_alike (hc : c.Alike c') (hs : s.Alike s')
    (even : c.precision.DividesHalfEven (quotients c s))
    (even' : c'.precision.DividesHalfEven (quotients c' s')) :
    Agree Alike (build c s) (build c' s') := by
  rw [build, build, ← hs.currency, ← hc.targetUnit, ← hs.unit, ← hc.precision]
  refine (Contract.validate_alike hc).bind fun _ _ _ _ _ => ?_
  refine (Agree.of_iff (Publication.validate_alike hs)).bind fun _ _ valid _ _ => ?_
  refine (Agree.refl _).bind ?_
  rintro target _ htarget - rfl
  have htarget' : c'.targetUnit s'.currency = .ok target := by
    rw [← hs.currency, ← hc.targetUnit, htarget]
  refine (checkFees_alike hc).bind fun _ _ _ _ _ => ?_
  refine (Agree.refl _).bind ?_
  rintro source _ hsource - rfl
  have hsource' : s'.unit = .ok source := by rw [← hs.unit, hsource]
  refine (Agree.refl _).bind ?_
  rintro conversion _ hconversion - rfl
  rw [ofMeasured_eq_ok] at hconversion
  obtain ⟨fee, feeTax, spotTax⟩ := dividesHalfEven_parts even htarget
  obtain ⟨fee', feeTax', spotTax'⟩ := dividesHalfEven_parts even' htarget'
  rw [← hc.precision] at fee' feeTax'
  refine (Fees.ofContract_alike hc fee fee').bind ?_
  intro fees fees' hfees hfees' alike
  have units := Fees.unit_ofContract hfees
  refine (Fees.sum_alike alike units (feeTax fees hfees) (feeTax' fees' hfees')).bind ?_
  intro feeSum feeSum' hfeeSum _ feeSums
  have unit := (Fees.toRat_sum units hfeeSum).1
  have narrow := narrow_of_units htarget hsource hconversion
  have priced := Agree.mapM (f := PricedPoint.ofPoint c target conversion feeSum)
    (g := PricedPoint.ofPoint c' target conversion feeSum') hs.orderedPoints
    fun point point' mem mem' hpoint => by
      refine PricedPoint.ofPoint_alike hc feeSums unit hpoint narrow ?_ ?_
      · intro value hvalue
        have told :
            Quantity.convert ⟨point.price, source⟩ target c.precision = .ok ⟨value, target⟩ :=
          Quantity.convert_eq_ok.mpr ⟨conversion, hconversion, value, hvalue, rfl⟩
        exact spotTax source hsource point (s.orderedPoints_perm.mem_iff.mp mem) _ told
      · intro value hvalue
        have told : Quantity.convert ⟨point'.price, source⟩ target c'.precision =
            .ok ⟨value, target⟩ :=
          Quantity.convert_eq_ok.mpr ⟨conversion, hconversion, value, hvalue, rfl⟩
        exact spotTax' source hsource' point' (s'.orderedPoints_perm.mem_iff.mp mem') _ told
  refine priced.bind ?_
  intro points points' hpoints _ alikePoints
  -- there are as many priced points as slots
  have length : points.length = s.points.length := by
    rw [← (mapM_eq_ok.mp hpoints).length_eq, s.orderedPoints_perm.length_eq]
  obtain ⟨-, few⟩ := Publication.length_points valid
  rw [← length] at few
  exact ofPoints_alike hc hs alike alikePoints (few.trans_lt (by decide))

/-! ## Units that leave no choice -/

/-- **Rates in percent or plain rates, and fees in units of prices** leave no choice how
quotients are stored. -/
theorem dividesHalfEven_of_plain
    (general : c.generalRate.unit = .percent ∨ c.generalRate.unit = .one)
    (seller : c.effectiveSellerRate.unit = .percent ∨ c.effectiveSellerRate.unit = .one)
    (fees : ∀ fee, c.transfer = some fee ∨ c.tax = some fee ∨ c.margin = some fee →
      ∃ code part, ∃ energy ∈ MeasureUnit.energyUnits, fee.unit = .pricePer code part energy) :
    c.precision.DividesHalfEven (quotients c s) := by
  rintro all a b ⟨target, htarget, mem⟩
  obtain ⟨code, energy, henergy, unit⟩ := Contract.targetUnit_eq_ok htarget
  have taxes {t : TaxedPrice} (told : t.unit = target)
      (plain : t.taxRate.unit = .percent ∨ t.taxRate.unit = .one) :
      c.precision.DividesHalfEven (t.quotients c.precision) := by
    refine TaxedPrice.dividesHalfEven_of_lt fun conversion hconversion => ?_
    rw [told, unit] at hconversion
    exact MeasureUnit.tax_denominator_lt_wideFrom henergy plain hconversion
  rcases mem with ⟨fee, stated, mem⟩ | ⟨told, htold, mem⟩ | ⟨source, -, _, -, price, hprice, mem⟩
  · obtain ⟨_, _, other, hother, feeUnit⟩ := fees fee stated
    refine Quantity.dividesHalfEven_of_lt (fun conversion hconversion => ?_) all a b mem
    rw [feeUnit, unit] at hconversion
    exact MeasureUnit.denominator_lt_wideFrom hother henergy hconversion
  · obtain ⟨transferUnit, taxUnit, marginUnit⟩ := Fees.unit_ofContract htold
    obtain ⟨transfer, tax, margin⟩ := Fees.ofContract_eq_ok htold
    rcases mem with (mem | mem) | mem
    · exact taxes transferUnit (transfer.taxRate ▸ general) all a b mem
    · exact taxes taxUnit (tax.taxRate ▸ general) all a b mem
    · exact taxes marginUnit (margin.taxRate ▸ seller) all a b mem
  · obtain ⟨_, -, _, -, rfl⟩ := Quantity.convert_eq_ok.mp hprice
    exact taxes rfl seller all a b mem

end Schedule

/-! ## Three hours, written in another way -/

/-- The two rates with zeros behind some numbers. -/
def Contract.twoRatesPadded : Contract :=
  { Contract.twoRates with
    transfer := some ⟨.ofDigits 34000 4, centPerKilowattHour⟩
    generalRate := ⟨.ofDigits 25500 3, .percent⟩ }

/-- The three hours with zeros behind some prices, and fewer behind another one. -/
def Publication.threeHoursPadded : Publication :=
  { Publication.threeHours with
    points := [⟨2, .ofDigits 5000 2⟩, ⟨1, .ofDigits 10049000 5⟩, ⟨3, .ofDigits 10049 2⟩] }

theorem Contract.alike_twoRatesPadded : Contract.twoRates.Alike .twoRatesPadded where
  transfer := .some ⟨by decide, rfl⟩
  tax := .some (.refl _)
  margin := .some (.refl _)
  feesIncludeTax := rfl
  generalRate := ⟨by decide, rfl⟩
  sellerRate := .some (.refl _)
  currency := rfl
  energyUnit := rfl
  useSubunit := rfl
  zone := rfl
  precision := rfl

theorem Publication.alike_threeHoursPadded : Publication.threeHours.Alike .threeHoursPadded where
  created := rfl
  start := rfl
  stop := rfl
  slotLength := rfl
  domain := rfl
  currency := rfl
  energyUnit := rfl
  points := .cons ⟨rfl, by decide⟩ (.cons ⟨rfl, by decide⟩ (.cons ⟨rfl, by decide⟩ .nil))

/-- Both writings of three hours make schedules whose numbers are the same. -/
theorem Schedule.build_alike_threeHours : ∃ schedule schedule',
    build .twoRates .threeHours = .ok schedule ∧
      build .twoRatesPadded .threeHoursPadded = .ok schedule' ∧ schedule.Alike schedule' := by
  obtain ⟨schedule, h⟩ := exists_threeHours
  have units : ∀ fee : Quantity, fee.unit = centPerKilowattHour →
      ∃ code part, ∃ energy ∈ MeasureUnit.energyUnits, fee.unit = .pricePer code part energy :=
    fun fee unit => ⟨"EUR", true, .kilowattHour, by simp [MeasureUnit.energyUnits], unit⟩
  have even : Contract.twoRates.precision.DividesHalfEven (quotients .twoRates .threeHours) := by
    refine dividesHalfEven_of_plain (.inl rfl) (.inl rfl) ?_
    rintro fee (isFee | isFee | isFee) <;> exact units fee (Option.some.inj isFee ▸ rfl)
  have even' : Contract.twoRatesPadded.precision.DividesHalfEven
      (quotients .twoRatesPadded .threeHoursPadded) := by
    refine dividesHalfEven_of_plain (.inl rfl) (.inl rfl) ?_
    rintro fee (isFee | isFee | isFee) <;> exact units fee (Option.some.inj isFee ▸ rfl)
  obtain ⟨schedule', h', alike⟩ := (build_alike Contract.alike_twoRatesPadded
    Publication.alike_threeHoursPadded even even').exists_ok h
  exact ⟨schedule, schedule', h, h', alike⟩

end Tariff
