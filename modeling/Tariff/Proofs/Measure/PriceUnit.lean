import Tariff.Pricing.Contract
import Tariff.Pricing.Publication
import Tariff.Proofs.Measure.Reduction
import Tariff.Proofs.Measure.Sameness

/-!
# Units of prices

Prices are told in money for energy: in a currency or in its hundredth part, for
one of the units in which energy is sold.

## Main definitions

* `MeasureUnit.money` — a currency or its hundredth part
* `MeasureUnit.pricePer` — money for a unit of energy
* `MeasureUnit.percentOf` — a percentage of such a price
* `MeasureUnit.perJoule` — the roots of such a price

## Main statements

* `Publication.unit_eq_ok`, `Contract.targetUnit_eq_ok` — the units of published
  prices and of schedules
* `MeasureUnit.reduce?_pricePer` — their reductions
* `MeasureUnit.conversionTo_pricePer`, `MeasureUnit.conversionTo_percentOf` — how
  prices and taxes on them are converted
* `MeasureUnit.denominator_lt_wideFrom`, `MeasureUnit.tax_denominator_lt_wideFrom`
  — their denominators are not wide

## Design notes

The code of a currency may be any three capital letters.  Nothing that is shown
here depends on the code: it is a label that no calculation looks into.
-/

namespace Tariff

namespace MeasureUnit

/-- **Money.**  A currency or its hundredth part. -/
def money (code : String) (hundredth : Bool) : MeasureUnit :=
  if hundredth then
    (primitive code code Dimension.currency).scaled (subunitLabels code).1 (subunitLabels code).2
      (.ofDigits 1 2)
  else primitive code code Dimension.currency

/-- **Money for a unit of energy.** -/
def pricePer (code : String) (hundredth : Bool) (energy : MeasureUnit) : MeasureUnit :=
  (money code hundredth).divide energy

/-! ## Factors -/

theorem factors_derived (terms : List (MeasureUnit × Int)) (symbol name : String)
    (dimension : Dimension) : (derived terms symbol name dimension).factors = terms := rfl

/-- A quotient of different units that are no products keeps both. -/
theorem divide_of_different {a b : MeasureUnit} (ha : a.factors = [(a, 1)])
    (hb : b.factors = [(b, 1)]) (different : a.same b = false) :
    a.divide b = derived [(a, 1), (b, -1)] (symbolOf [(a, 1), (b, -1)])
      (nameOf [(a, 1), (b, -1)]) (dimensionOf [(a, 1), (b, -1)]) := by
  simp [divide, product, flatten, ha, hb, merge, absorb, different, arrange, ofTerms]

/-! ## Money for energy -/

theorem dimension_money (code : String) (hundredth : Bool) :
    (money code hundredth).dimension = Dimension.currency := by
  cases hundredth <;> rfl

theorem factors_money (code : String) (hundredth : Bool) :
    (money code hundredth).factors = [(money code hundredth, 1)] := by
  have currency : Dimension.currency.isNone = false := by decide
  cases hundredth <;> simp [money, factors, isOne, currency]

theorem isPositive_money (code : String) (hundredth : Bool) :
    (money code hundredth).isPositive = true := by
  cases hundredth <;> rfl

theorem energy_facts {energy : MeasureUnit} (h : energy ∈ energyUnits) :
    energy.dimension = Dimension.energy ∧ energy.factors = [(energy, 1)] ∧
      energy.isPositive = true := by
  simp only [energyUnits, List.mem_cons, List.not_mem_nil, or_false] at h
  rcases h with rfl | rfl | rfl | rfl | rfl <;> exact ⟨rfl, rfl, rfl⟩

theorem money_not_same_energy (code : String) (hundredth : Bool) {energy : MeasureUnit}
    (h : energy ∈ energyUnits) : (money code hundredth).same energy = false := by
  apply not_same_of_dimension
  rw [dimension_money, (energy_facts h).1]
  decide

/-- Money for energy is a product of two terms. -/
theorem pricePer_eq (code : String) (hundredth : Bool) {energy : MeasureUnit}
    (h : energy ∈ energyUnits) :
    pricePer code hundredth energy =
      derived [(money code hundredth, 1), (energy, -1)]
        (symbolOf [(money code hundredth, 1), (energy, -1)])
        (nameOf [(money code hundredth, 1), (energy, -1)])
        (dimensionOf [(money code hundredth, 1), (energy, -1)]) :=
  divide_of_different (factors_money code hundredth) (energy_facts h).2.1
    (money_not_same_energy code hundredth h)

theorem isPositive_pricePer (code : String) (hundredth : Bool) {energy : MeasureUnit}
    (h : energy ∈ energyUnits) : (pricePer code hundredth energy).isPositive = true :=
  isPositive_divide (isPositive_money code hundredth) (energy_facts h).2.2

/-- Money for energy measures that. -/
theorem dimension_pricePer (code : String) (hundredth : Bool) {energy : MeasureUnit}
    (h : energy ∈ energyUnits) :
    (pricePer code hundredth energy).dimension = Dimension.currency.divide .energy := by
  rw [pricePer_eq code hundredth h]
  have powers : ∀ a b : MeasureUnit, dimensionOf [(a, 1), (b, -1)] =
      (Dimension.none.multiply (a.dimension.pow 1)).multiply (b.dimension.pow (-1)) :=
    fun _ _ => rfl
  rw [dimension, powers, dimension_money, (energy_facts h).1]
  decide

/-! ## Taxed prices

A tax on a price is first told in the unit of the price times that of the rate. -/

/-- A plain rate does not change the unit of a price. -/
theorem multiply_one (code : String) (hundredth : Bool) {energy : MeasureUnit}
    (h : energy ∈ energyUnits) :
    (pricePer code hundredth energy).multiply one = pricePer code hundredth energy := by
  have different := money_not_same_energy code hundredth h
  have plain : one.factors = [] := by decide
  rw [pricePer_eq code hundredth h]
  generalize money code hundredth = currency at *
  simp [multiply, product, flatten, factors_derived, plain, merge, absorb, different, arrange, ofTerms]

/-- Money for energy at a percentage. -/
def percentOf (code : String) (hundredth : Bool) (energy : MeasureUnit) : MeasureUnit :=
  let terms := [(money code hundredth, 1), (percent, 1), (energy, -1)]
  derived terms (symbolOf terms) (nameOf terms) (dimensionOf terms)

/-- A rate in percent is kept among the terms, in front of the line. -/
theorem multiply_percent (code : String) (hundredth : Bool) {energy : MeasureUnit}
    (h : energy ∈ energyUnits) :
    (pricePer code hundredth energy).multiply percent = percentOf code hundredth energy := by
  have different := money_not_same_energy code hundredth h
  have money_percent : (money code hundredth).same percent = false := by
    apply not_same_of_dimension
    rw [dimension_money]
    decide
  have energy_percent : energy.same percent = false := by
    apply not_same_of_dimension
    rw [(energy_facts h).1]
    decide
  have percentage : percent.factors = [(percent, 1)] := rfl
  rw [pricePer_eq code hundredth h, percentOf]
  generalize money code hundredth = currency at *
  simp [multiply, product, flatten, factors_derived, percentage, merge, absorb, different, money_percent,
    energy_percent, arrange, ofTerms]

/-! ## Reductions -/

/-- A currency is a root unit, and its hundredth part a hundredth. -/
def moneyFactor (hundredth : Bool) : Decimal :=
  if hundredth then .ofDigits 1 2 else .one

theorem reduce?_money (code : String) (hundredth : Bool) :
    (money code hundredth).reduce? = some ⟨moneyFactor hundredth, .one, [(code, 1)]⟩ := by
  have currency : Dimension.currency.isNone = false := by decide
  have hundredthOf : Decimal.one.multiply? (.ofDigits 1 2) = some (.ofDigits 1 2) := by decide
  cases hundredth <;>
    simp [money, moneyFactor, reduce?, isOne, currency, Reduction.identity, hundredthOf]

/-- The units of energy in joules. -/
def energyFactors : List Decimal :=
  [.one, .ofDigits 3600 0, .ofDigits 3600000 0, .ofDigits 3600000000 0, .ofDigits 3600000000000 0]

theorem reduce?_energy {energy : MeasureUnit} (h : energy ∈ energyUnits) :
    ∃ factor ∈ energyFactors, energy.reduce? = some ⟨factor, .one, [("J", 1)]⟩ := by
  simp only [energyUnits, List.mem_cons, List.not_mem_nil, or_false] at h
  rcases h with rfl | rfl | rfl | rfl | rfl
  · exact ⟨.one, by simp [energyFactors], rfl⟩
  · exact ⟨.ofDigits 3600 0, by simp [energyFactors], rfl⟩
  · exact ⟨.ofDigits 3600000 0, by simp [energyFactors], rfl⟩
  · exact ⟨.ofDigits 3600000000 0, by simp [energyFactors], rfl⟩
  · exact ⟨.ofDigits 3600000000000 0, by simp [energyFactors], rfl⟩

/-- A factor of one leaves the factors of prices as they are. -/
theorem times?_once : ∀ d ∈ [Decimal.one, Decimal.ofDigits 1 2] ++ energyFactors,
    Decimal.one.times? d 1 = some d ∧ d.times? .one 1 = some d := by
  decide

/-- **The roots of a price** are a currency and the joule below it. -/
def perJoule (code : String) : Powers :=
  Powers.collect [(code, 1), ("J", -1)]

example : perJoule "EUR" = [("EUR", 1), ("J", -1)] := by decide

/-- **Reductions.**  Money for energy is the fraction of its two factors. -/
theorem reduce?_pricePer (code : String) (hundredth : Bool) {energy : MeasureUnit}
    {factor : Decimal} (h : energy ∈ energyUnits) (hfactor : factor ∈ energyFactors)
    (reduced : energy.reduce? = some ⟨factor, .one, [("J", 1)]⟩) :
    (pricePer code hundredth energy).reduce? =
      some ⟨moneyFactor hundredth, factor, perJoule code⟩ := by
  have money := times?_once (moneyFactor hundredth) (by cases hundredth <;> simp [moneyFactor])
  have energy := times?_once factor (List.mem_append_right _ hfactor)
  have one := times?_once .one List.mem_cons_self
  rw [pricePer_eq code hundredth h]
  simp [reduce?, reduceTerms?, reduce?_money, reduced, Reduction.absorb?, Reduction.identity,
    money.1, money.2, energy.1, one.1, perJoule, Powers.collect, Powers.ordered, Powers.insert,
    Powers.scale]

/-- A hundredth of money. -/
def percentFactor (hundredth : Bool) : Decimal :=
  if hundredth then .ofDigits 1 4 else .ofDigits 1 2

theorem reduce?_percentOf (code : String) (hundredth : Bool) {energy : MeasureUnit}
    {factor : Decimal} (hfactor : factor ∈ energyFactors)
    (reduced : energy.reduce? = some ⟨factor, .one, [("J", 1)]⟩) :
    ∃ roots, (percentOf code hundredth energy).reduce? =
      some ⟨percentFactor hundredth, factor, roots⟩ := by
  have energy := (times?_once factor (List.mem_append_right _ hfactor)).1
  have money := times?_once (moneyFactor hundredth) (by cases hundredth <;> simp [moneyFactor])
  have one := (times?_once .one List.mem_cons_self).1
  have part : (moneyFactor hundredth).times? (.ofDigits 1 2) 1 =
      some (percentFactor hundredth) := by
    cases hundredth <;> decide +kernel
  have stays : (percentFactor hundredth).times? .one 1 = some (percentFactor hundredth) := by
    cases hundredth <;> decide +kernel
  have percentage : percent.reduce? = some ⟨.ofDigits 1 2, .one, []⟩ := rfl
  simp [percentOf, reduce?, reduceTerms?, reduce?_money, percentage, reduced, Reduction.absorb?,
    Reduction.identity, money.1, energy, one, part, stays]

/-! ## Conversions -/

section Conversions

variable {code other : String} {hundredth part : Bool} {source target : MeasureUnit}
  {conversion : Conversion}

/-- **Between prices** a conversion is the identity or the fraction of money for
energy on both sides. -/
theorem conversionTo_pricePer (hs : source ∈ energyUnits) (ht : target ∈ energyUnits)
    (h : (pricePer code hundredth source).conversionTo (pricePer other part target) =
      .ok conversion) :
    ((pricePer code hundredth source).same (pricePer other part target) = true ∧
      conversion = .identity) ∨
    ∃ sourceFactor ∈ energyFactors, ∃ targetFactor ∈ energyFactors,
      source.reduce? = some ⟨sourceFactor, .one, [("J", 1)]⟩ ∧
        target.reduce? = some ⟨targetFactor, .one, [("J", 1)]⟩ ∧
          ∃ numerator denominator,
            (moneyFactor hundredth).multiply? targetFactor = some numerator ∧
              sourceFactor.multiply? (moneyFactor part) = some denominator ∧
                conversion = .ofFraction numerator denominator := by
  obtain ⟨sourceFactor, hsource, sourceReduced⟩ := reduce?_energy hs
  obtain ⟨targetFactor, htarget, targetReduced⟩ := reduce?_energy ht
  have sourceEq := reduce?_pricePer code hundredth hs hsource sourceReduced
  have targetEq := reduce?_pricePer other part ht htarget targetReduced
  rcases conversionTo_eq_ok h with same | ⟨r, t, hr, ht', -, numerator, denominator, hn, hd, eq⟩
  · exact .inl same
  · rw [sourceEq] at hr
    rw [targetEq] at ht'
    obtain rfl := Option.some.inj hr
    obtain rfl := Option.some.inj ht'
    exact .inr ⟨sourceFactor, hsource, targetFactor, htarget, sourceReduced, targetReduced,
      numerator, denominator, hn, hd, eq⟩

/-- **Prices of one currency** are converted into each other, and none of these
conversions divides by zero. -/
theorem exists_conversion_pricePer (code : String) (hundredth part : Bool)
    (hs : source ∈ energyUnits) (ht : target ∈ energyUnits) :
    ∃ conversion, (pricePer code hundredth source).conversionTo (pricePer code part target) =
      .ok conversion ∧ ¬ conversion.denominator.isZero = true := by
  obtain ⟨sourceFactor, hsource, sourceReduced⟩ := reduce?_energy hs
  obtain ⟨targetFactor, htarget, targetReduced⟩ := reduce?_energy ht
  have compatible : (pricePer code hundredth source).compatible (pricePer code part target) = true := by
    rw [MeasureUnit.compatible, dimension_pricePer code hundredth hs, dimension_pricePer code part ht,
      beq_self_eq_true]
  have room : ∀ f ∈ energyFactors, ∀ hundredth : Bool,
      ((moneyFactor hundredth).multiply? f).isSome = true ∧
        (f.multiply? (moneyFactor hundredth)).map Decimal.isZero = some false := by
    decide +kernel
  obtain ⟨numerator, hn⟩ := Option.isSome_iff_exists.mp (room targetFactor htarget hundredth).1
  obtain ⟨denominator, hd, nonzero⟩ := Option.map_eq_some_iff.mp (room sourceFactor hsource part).2
  have one : ¬ Conversion.identity.denominator.isZero = true := by decide
  by_cases same : (pricePer code hundredth source).same (pricePer code part target) = true
  · exact ⟨.identity, if_pos same, one⟩
  · refine ⟨.ofFraction numerator denominator, ?_, ?_⟩
    · rw [conversionTo, if_neg same, if_pos compatible,
        reduce?_pricePer code hundredth hs hsource sourceReduced,
        reduce?_pricePer code part ht htarget targetReduced]
      simp only [reducedConversion, if_true, hn, hd]
    · rw [Conversion.ofFraction]
      split
      · exact one
      · simp [nonzero]

/-- **From a percentage of a price** a conversion is a fraction with a hundredth
in it. -/
theorem conversionTo_percentOf (hs : source ∈ energyUnits)
    (h : (percentOf code hundredth source).conversionTo (pricePer code hundredth source) =
      .ok conversion) :
    ∃ factor ∈ energyFactors, source.reduce? = some ⟨factor, .one, [("J", 1)]⟩ ∧
      ∃ numerator denominator,
        (percentFactor hundredth).multiply? factor = some numerator ∧
          factor.multiply? (moneyFactor hundredth) = some denominator ∧
            conversion = .ofFraction numerator denominator := by
  obtain ⟨factor, hfactor, reduced⟩ := reduce?_energy hs
  obtain ⟨_, sourceEq⟩ := reduce?_percentOf code hundredth hfactor reduced
  have targetEq := reduce?_pricePer code hundredth hs hfactor reduced
  rcases conversionTo_eq_ok h with
    ⟨same, -⟩ | ⟨r, t, hr, ht, -, numerator, denominator, hn, hd, eq⟩
  · -- a price and a percentage of it are not built alike
    rw [pricePer_eq code hundredth hs, percentOf] at same
    simp [MeasureUnit.same, sameTerms] at same
  · rw [sourceEq] at hr
    rw [targetEq] at ht
    obtain rfl := Option.some.inj hr
    obtain rfl := Option.some.inj ht
    exact ⟨factor, hfactor, reduced, numerator, denominator, hn, hd, eq⟩

/-- The denominators of such fractions have at most 64 bits. -/
theorem ofFraction_lt_wideFrom {factor numerator denominator : Decimal}
    (hfactor : factor ∈ energyFactors)
    (h : factor.multiply? (moneyFactor part) = some denominator) :
    (Conversion.ofFraction numerator denominator).denominator.mantissa < Decimal.wideFrom := by
  have narrow : ∀ factor ∈ energyFactors, ∀ part : Bool,
      (factor.multiply? (moneyFactor part)).all (·.mantissa < Decimal.wideFrom) = true := by
    decide +kernel
  rw [Conversion.ofFraction]
  split
  · decide
  · have bound := narrow factor hfactor part
    rw [h, Option.all_some, decide_eq_true_eq] at bound
    exact bound

/-- Between prices the denominator of a conversion has at most 64 bits. -/
theorem denominator_lt_wideFrom (hs : source ∈ energyUnits) (ht : target ∈ energyUnits)
    (h : (pricePer code hundredth source).conversionTo (pricePer other part target) =
      .ok conversion) : conversion.denominator.mantissa < Decimal.wideFrom := by
  rcases conversionTo_pricePer hs ht h with
    ⟨-, rfl⟩ | ⟨sourceFactor, hsource, _, -, -, -, numerator, denominator, -, hd, rfl⟩
  · decide
  · exact ofFraction_lt_wideFrom hsource hd

/-- So has that of the conversion of a tax in percent or at a plain rate. -/
theorem tax_denominator_lt_wideFrom {rate : MeasureUnit} (hs : source ∈ energyUnits)
    (plain : rate = percent ∨ rate = one)
    (h : ((pricePer code hundredth source).multiply rate).conversionTo
      (pricePer code hundredth source) = .ok conversion) :
    conversion.denominator.mantissa < Decimal.wideFrom := by
  rcases plain with rfl | rfl
  · rw [multiply_percent code hundredth hs] at h
    obtain ⟨factor, hfactor, -, numerator, denominator, -, hd, rfl⟩ := conversionTo_percentOf hs h
    exact ofFraction_lt_wideFrom hfactor hd
  · rw [multiply_one code hundredth hs] at h
    exact denominator_lt_wideFrom hs hs h

end Conversions

/-! ## The units of publications and contracts -/

/-- A currency is named by the text without the blanks around it. -/
theorem currency_eq_ok {code : String} {unit : MeasureUnit} (h : currency code = .ok unit) :
    unit = money (String.ofList (Text.trim code.toList)) false := by
  unfold currency at h
  dsimp only at h
  split at h
  · exact (Except.ok.inj h).symm
  · cases h

theorem subunit_money (code : String) : (money code false).subunit = .ok (money code true) := by
  simp [money, subunit]

theorem energyNamed_eq_ok {symbol : String} {unit : MeasureUnit}
    (h : energyNamed symbol = .ok unit) : unit ∈ energyUnits := by
  unfold energyNamed at h
  dsimp only at h
  split at h
  · next found =>
      obtain rfl := Except.ok.inj h
      exact List.mem_of_find?_eq_some found
  · cases h

end MeasureUnit

/-- **The currency of a series** as a code, which may be written in any case and with
blanks around it. -/
def Publication.currencyCode (series : String) : String :=
  String.ofList (Text.trim (Text.upper series).toList)

/-- Published prices are told in the currency of the publication. -/
theorem Publication.unit_eq_pricePer {s : Publication} {unit : MeasureUnit} (h : s.unit = .ok unit) :
    ∃ energy ∈ MeasureUnit.energyUnits,
      unit = .pricePer (currencyCode s.currency) false energy := by
  obtain ⟨currency, hcurrency, h⟩ := Outcome.bind_eq_ok.mp (Outcome.ofMeasured_eq_ok.mp h)
  obtain ⟨energy, henergy, h⟩ := Outcome.bind_eq_ok.mp h
  obtain rfl := MeasureUnit.currency_eq_ok hcurrency
  exact ⟨energy, MeasureUnit.energyNamed_eq_ok henergy, (Outcome.pure_eq_ok.mp h).symm⟩

/-- **Published prices** are told in a currency for a unit of energy. -/
theorem Publication.unit_eq_ok {s : Publication} {unit : MeasureUnit} (h : s.unit = .ok unit) :
    ∃ code, ∃ energy ∈ MeasureUnit.energyUnits, unit = .pricePer code false energy :=
  ⟨currencyCode s.currency, unit_eq_pricePer h⟩

/-- Money in a known currency is told for any unit of energy. -/
theorem Contract.moneyPerEnergy_eq_map {code : String} {root : MeasureUnit}
    (known : MeasureUnit.currency code = .ok root) (energyUnit : String) (useSubunit : Bool) :
    moneyPerEnergy code energyUnit useSubunit =
      MeasureUnit.pricePer (String.ofList (Text.trim code.toList)) useSubunit <$>
        MeasureUnit.energyNamed energyUnit := by
  obtain rfl := MeasureUnit.currency_eq_ok known
  rw [moneyPerEnergy, known]
  generalize String.ofList (Text.trim code.toList) = label
  -- either way the currency is turned into money without an error
  have same : ∀ rest : MeasureUnit → Measured MeasureUnit,
      (if useSubunit = true then (MeasureUnit.money label false).subunit >>= rest
        else Except.ok (MeasureUnit.money label false) >>= rest) =
      rest (MeasureUnit.money label useSubunit) := by
    intro rest
    cases useSubunit with
    | false => rfl
    | true =>
        rw [if_pos rfl, MeasureUnit.subunit_money]
        rfl
  refine (same _).trans ?_
  cases MeasureUnit.energyNamed energyUnit <;> rfl

/-- Money for energy is told in the currency that the code names. -/
theorem Contract.moneyPerEnergy_eq_ok {code energyUnit : String} {useSubunit : Bool}
    {unit : MeasureUnit} (h : moneyPerEnergy code energyUnit useSubunit = .ok unit) :
    MeasureUnit.currency code = .ok (.money (String.ofList (Text.trim code.toList)) false) ∧
      ∃ energy ∈ MeasureUnit.energyUnits,
        unit = .pricePer (String.ofList (Text.trim code.toList)) useSubunit energy := by
  obtain ⟨currency, hcurrency, -⟩ := Outcome.bind_eq_ok.mp h
  rw [moneyPerEnergy_eq_map hcurrency] at h
  obtain ⟨energy, henergy, rfl⟩ := Outcome.map_eq_ok.mp h
  obtain rfl := MeasureUnit.currency_eq_ok hcurrency
  exact ⟨hcurrency, energy, MeasureUnit.energyNamed_eq_ok henergy, rfl⟩

/-- A contract that names a currency names that of the series. -/
theorem Contract.checkSeriesCurrency_eq_ok {c : Contract} {code stated : String}
    (h : c.checkSeriesCurrency code = .ok ⟨⟩) (currency : c.currency = some stated) :
    stated = code := by
  rw [checkSeriesCurrency, currency] at h
  dsimp only at h
  split at h
  · next same => exact same
  · cases h

/-- A schedule is told in the currency of the series, which the contract does not
contradict. -/
theorem Contract.targetUnit_eq_pricePer {c : Contract} {series : String} {unit : MeasureUnit}
    (h : c.targetUnit series = .ok unit) :
    (∀ stated, c.currency = some stated →
      MeasureUnit.currency stated = .ok (.money (Publication.currencyCode series) false)) ∧
    ∃ energy ∈ MeasureUnit.energyUnits,
      unit = .pricePer (Publication.currencyCode series) c.useSubunit energy := by
  obtain ⟨⟨⟩, check, h⟩ := Outcome.bind_eq_ok.mp h
  obtain ⟨currency, unit⟩ := moneyPerEnergy_eq_ok (Outcome.ofMeasured_eq_ok.mp h)
  refine ⟨fun stated some => ?_, unit⟩
  rw [checkSeriesCurrency_eq_ok check some]
  exact currency

/-- **Schedules** are told in a currency or its hundredth part for a unit of
energy. -/
theorem Contract.targetUnit_eq_ok {c : Contract} {series : String} {unit : MeasureUnit}
    (h : c.targetUnit series = .ok unit) :
    ∃ code, ∃ energy ∈ MeasureUnit.energyUnits, unit = .pricePer code c.useSubunit energy :=
  ⟨_, (targetUnit_eq_pricePer h).2⟩

end Tariff
