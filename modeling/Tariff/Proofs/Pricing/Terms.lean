import Tariff.Proofs.Measure.Writing
import Tariff.Proofs.Pricing.Fees
import Tariff.Proofs.Pricing.Positions

/-!
# Terms written in different ways

Contracts and publications are given as text, in which a number may have any number
of zeros at its end.  Whatever is asked of the terms before slots are priced has the
same answer for all writings of their numbers.

## Main definitions

* `Contract.Alike`, `Publication.Alike` — terms that differ in the writing of numbers
  only
* `TaxedPrice.Alike`, `Fees.Alike` — the same for prices with tax

## Main statements

* `Contract.validate_alike`, `Publication.validate_alike` — validation
* `TaxedPrice.sum_alike` — a price with tax
* `Fees.ofContract_alike`, `Fees.sum_alike` — the fees of a contract
-/

namespace Tariff

open Outcome

/-- Related lists that are sorted alike stay related: an element is put in a related
place. -/
theorem insertSorted_forall₂ {α β : Type} {r : α → β → Prop} {later : α → α → Bool}
    {later' : β → β → Bool} (agree : ∀ a b x y, r a x → r b y → later a b = later' x y)
    {a : α} {x : β} (head : r a x) {list : List α} {other : List β} (h : List.Forall₂ r list other) :
    List.Forall₂ r (insertSorted later a list) (insertSorted later' x other) := by
  induction h with
  | nil => exact .cons head .nil
  | cons first rest ih =>
      rw [insertSorted, insertSorted, agree _ _ _ _ head first]
      split
      · exact .cons first ih
      · exact .cons head (.cons first rest)

/-- **Related lists that are sorted alike** stay related. -/
theorem sortBy_forall₂ {α β : Type} {r : α → β → Prop} {later : α → α → Bool}
    {later' : β → β → Bool} (agree : ∀ a b x y, r a x → r b y → later a b = later' x y)
    {list : List α} {other : List β} (h : List.Forall₂ r list other) :
    List.Forall₂ r (sortBy later list) (sortBy later' other) := by
  induction h with
  | nil => exact .nil
  | cons head _ ih => exact insertSorted_forall₂ agree head ih

/-- So do they when elements are left out on both sides. -/
theorem filterMap_forall₂ {α β γ δ : Type} {r : α → β → Prop} {s : γ → δ → Prop}
    {f : α → Option γ} {g : β → Option δ} {list : List α} {other : List β}
    (h : List.Forall₂ r list other) (step : ∀ a b, r a b → Option.Rel s (f a) (g b)) :
    List.Forall₂ s (list.filterMap f) (other.filterMap g) := by
  induction h with
  | nil => exact .nil
  | @cons a b _ _ head _ ih =>
      have related := step a b head
      rw [List.filterMap_cons, List.filterMap_cons]
      generalize f a = x at related ⊢
      generalize g b = y at related ⊢
      cases related with
      | none => exact ih
      | some related => exact .cons related ih

/-! ## Contracts -/

namespace Contract

/-- **Contracts that differ in the writing of numbers only.** -/
structure Alike (c c' : Contract) : Prop where
  transfer : Option.Rel Quantity.Alike c.transfer c'.transfer
  tax : Option.Rel Quantity.Alike c.tax c'.tax
  margin : Option.Rel Quantity.Alike c.margin c'.margin
  feesIncludeTax : c.feesIncludeTax = c'.feesIncludeTax
  generalRate : c.generalRate.Alike c'.generalRate
  sellerRate : Option.Rel Quantity.Alike c.sellerRate c'.sellerRate
  currency : c.currency = c'.currency
  energyUnit : c.energyUnit = c'.energyUnit
  useSubunit : c.useSubunit = c'.useSubunit
  zone : c.zone = c'.zone
  precision : c.precision = c'.precision

variable {c c' : Contract}

theorem Alike.effectiveSellerRate (h : c.Alike c') :
    c.effectiveSellerRate.Alike c'.effectiveSellerRate := by
  have stated : ∀ {seller seller' : Option Quantity}, Option.Rel Quantity.Alike seller seller' →
      (seller.getD c.generalRate).Alike (seller'.getD c'.generalRate) := by
    rintro _ _ (alike | -)
    · exact alike
    · exact h.generalRate
  exact stated h.sellerRate

/-- The same fees are stated. -/
theorem Alike.statedFees (h : c.Alike c') :
    List.Forall₂ (fun a b => a.1 = b.1 ∧ a.2.Alike b.2) c.statedFees c'.statedFees := by
  have fees : List.Forall₂ (fun a b => a.1 = b.1 ∧ Option.Rel Quantity.Alike a.2 b.2)
      c.fees c'.fees :=
    .cons ⟨rfl, h.transfer⟩ (.cons ⟨rfl, h.tax⟩ (.cons ⟨rfl, h.margin⟩ .nil))
  refine filterMap_forall₂ fees ?_
  rintro ⟨name, fee⟩ ⟨name', fee'⟩ ⟨same, stated⟩
  cases stated with
  | none => exact .none
  | some alike => exact .some ⟨same, alike⟩

theorem Alike.targetUnit (h : c.Alike c') (code : String) :
    c.targetUnit code = c'.targetUnit code := by
  simp only [Contract.targetUnit, checkSeriesCurrency, h.currency, h.energyUnit, h.useSubunit]

theorem checkRate_alike {name : String} {rate rate' : Quantity} (h : rate.Alike rate') :
    Agree (· = ·) (checkRate name rate) (checkRate name rate') := by
  refine .of_iff ?_
  rw [checkRate_eq_ok, checkRate_eq_ok, TaxedPrice.checkRate_eq_ok, TaxedPrice.checkRate_eq_ok,
    h.isDimensionless, h.isNegative]

theorem checkFee_alike {dimension : Dimension} {name name' : String} {fee fee' : Quantity}
    (h : fee.Alike fee') :
    Agree (· = ·) (checkFee dimension name fee) (checkFee dimension name' fee') := by
  rw [checkFee, checkFee, Quantity.dimension, Quantity.dimension, h.unit]
  split
  · exact .ok rfl
  · exact .error _ _

/-- **Validation of contracts** does not depend on the writing of numbers. -/
theorem validate_alike (h : c.Alike c') : Agree (· = ·) c.validate c'.validate := by
  refine (checkRate_alike h.generalRate).bind fun _ _ _ _ _ => ?_
  refine (checkRate_alike h.effectiveSellerRate).bind fun _ _ _ _ _ => ?_
  rw [checkCurrency, checkCurrency, h.energyUnit, h.currency]
  refine (Agree.refl _).bind ?_
  rintro energy _ - - rfl
  refine (Agree.refl _).bind fun _ _ _ _ _ => ?_
  refine .forM h.statedFees ?_
  rintro ⟨name, fee⟩ ⟨name', fee'⟩ ⟨-, alike⟩
  exact checkFee_alike alike

end Contract

/-! ## Publications -/

/-- Points of one position whose prices denote one number. -/
structure PricePoint.Alike (a b : PricePoint) : Prop where
  position : a.position = b.position
  price : a.price.Alike b.price

namespace Publication

/-- **Publications that differ in the writing of numbers only.** -/
structure Alike (s s' : Publication) : Prop where
  created : s.created = s'.created
  start : s.start = s'.start
  stop : s.stop = s'.stop
  slotLength : s.slotLength = s'.slotLength
  domain : s.domain = s'.domain
  currency : s.currency = s'.currency
  energyUnit : s.energyUnit = s'.energyUnit
  points : List.Forall₂ PricePoint.Alike s.points s'.points

variable {s s' : Publication}

theorem Alike.slotStart? (h : s.Alike s') (position : ℕ) :
    s.slotStart? position = s'.slotStart? position := by
  simp only [Publication.slotStart?, h.start, h.slotLength]

theorem Alike.unit (h : s.Alike s') : s.unit = s'.unit := by
  simp only [Publication.unit, h.currency, h.energyUnit]

theorem Alike.orderedPoints (h : s.Alike s') :
    List.Forall₂ PricePoint.Alike s.orderedPoints s'.orderedPoints := by
  refine sortBy_forall₂ ?_ h.points
  intro a b x y ha hb
  rw [ha.position, hb.position]

/-- **Validation of publications** does not depend on the writing of numbers. -/
theorem validate_alike (h : s.Alike s') : s.validate = .ok ⟨⟩ ↔ s'.validate = .ok ⟨⟩ := by
  have count : s.slotCount = s'.slotCount := by
    simp only [slotCount, h.start, h.stop, h.slotLength]
  have positions : s.points.map PricePoint.position = s'.points.map PricePoint.position := by
    rw [← List.forall₂_eq_eq_eq, List.forall₂_map_left_iff, List.forall₂_map_right_iff]
    exact h.points.imp fun _ _ alike => alike.position
  rw [validate_eq_ok, validate_eq_ok, count, positions]

end Publication

/-! ## Prices with tax -/

/-- The same side is given, by quantities written alike or not. -/
def Basis.Alike : Basis → Basis → Prop
  | .amount price, .amount price' => price.Alike price'
  | .sum price, .sum price' => price.Alike price'
  | _, _ => False

namespace TaxedPrice

/-- **Prices with tax** that differ in the writing of numbers only. -/
structure Alike (t u : TaxedPrice) : Prop where
  rate : t.taxRate.Alike u.taxRate
  basis : t.basis.Alike u.basis

/-- Prices with tax whose amounts, taxes and sums denote the same numbers. -/
structure SidesAlike (p : Precision) (t u : TaxedPrice) : Prop where
  amount : Agree Quantity.Alike (t.amount p) (u.amount p)
  tax : Agree Quantity.Alike (t.tax p) (u.tax p)
  sum : Agree Quantity.Alike (t.sum p) (u.sum p)

variable {t u : TaxedPrice} {basis basis' : Basis} {amount amount' rate rate' : Quantity}
  {p : Precision}

theorem of_alike (hbasis : basis.Alike basis') (hrate : rate.Alike rate') :
    Agree Alike (of basis rate) (of basis' rate') := by
  have checks : Agree (· = ·) (checkRate rate) (checkRate rate') := by
    refine .of_iff ?_
    rw [checkRate_eq_ok, checkRate_eq_ok, hrate.isDimensionless, hrate.isNegative]
  exact checks.bind fun _ _ _ _ _ => .ok ⟨hrate, hbasis⟩

/-- The tax on an amount. -/
theorem taxOnAmount_alike (hamount : amount.Alike amount') (hrate : rate.Alike rate')
    (even : p.DividesHalfEven (quotients ⟨rate, .amount amount⟩ p))
    (even' : p.DividesHalfEven (quotients ⟨rate', .amount amount'⟩ p)) :
    Agree Quantity.Alike (taxOnAmount amount rate p) (taxOnAmount amount' rate' p) := by
  refine (Quantity.multiply_alike hamount hrate).bind ?_
  intro product product' hproduct hproduct' alike
  rw [← hamount.unit]
  have half' := dividesHalfEven_taxOnAmount even' hproduct'
  rw [← hamount.unit] at half'
  exact Quantity.convert_alike alike (dividesHalfEven_taxOnAmount even hproduct) half'

/-- **A price with tax** does not depend on the writing of numbers. -/
theorem sum_alike (h : t.Alike u) (even : p.DividesHalfEven (t.quotients p))
    (even' : p.DividesHalfEven (u.quotients p)) :
    Agree Quantity.Alike (t.sum p) (u.sum p) := by
  obtain ⟨rate, price | price⟩ := t <;> obtain ⟨rate', price' | price'⟩ := u <;>
    obtain ⟨hrate, basis⟩ := h
  · have taxes := taxOnAmount_alike basis hrate even even'
    refine taxes.ofMeasured.bind ?_
    intro tax tax' htax _ alike
    exact (Quantity.add_alike basis alike
      (unit_taxOnAmount (Outcome.ofMeasured_eq_ok.mp htax))).ofMeasured
  · cases basis
  · cases basis
  · exact .ok basis

/-- **All sides of a price given without tax** do not depend on the writing of
numbers. -/
theorem sidesAlike (hamount : amount.Alike amount') (hrate : rate.Alike rate')
    (even : p.DividesHalfEven (quotients ⟨rate, .amount amount⟩ p))
    (even' : p.DividesHalfEven (quotients ⟨rate', .amount amount'⟩ p)) :
    SidesAlike p ⟨rate, .amount amount⟩ ⟨rate', .amount amount'⟩ where
  amount := .ok hamount
  tax := (taxOnAmount_alike hamount hrate even even').ofMeasured
  sum := sum_alike ⟨hrate, hamount⟩ even even'

end TaxedPrice

/-! ## Fees -/

/-- The quotients that are taken to tell the fees of a contract in a unit. -/
def Contract.feeQuotients (c : Contract) (target : MeasureUnit) : Set (Decimal × Decimal) :=
  {q | ∃ fee : Quantity, (c.transfer = some fee ∨ c.tax = some fee ∨ c.margin = some fee) ∧
    q ∈ fee.quotients target}

namespace Fees

/-- **Fees** that differ in the writing of numbers only. -/
structure Alike (fees fees' : Fees) : Prop where
  transfer : fees.transfer.Alike fees'.transfer
  tax : fees.tax.Alike fees'.tax
  margin : fees.margin.Alike fees'.margin

variable {c c' : Contract} {target : MeasureUnit} {fee fee' : Option Quantity}
  {rate rate' : Quantity} {fees fees' : Fees} {p : Precision}

/-- The currency of a fee is a matter of its unit. -/
theorem checkCurrency_alike {q q' : Quantity} {name name' : String} (h : q.Alike q') :
    Agree (· = ·) (checkCurrency target name q) (checkCurrency target name' q') := by
  unfold checkCurrency
  rw [h.unit]
  dsimp only
  split
  · exact .ok rfl
  · exact .error _ _

theorem price_alike (h : c.Alike c') (hfee : Option.Rel Quantity.Alike fee fee')
    (hrate : rate.Alike rate')
    (even : ∀ q, fee = some q → c.precision.DividesHalfEven (q.quotients target))
    (even' : ∀ q, fee' = some q → c.precision.DividesHalfEven (q.quotients target)) :
    Agree TaxedPrice.Alike (price c target fee rate) (price c' target fee' rate') := by
  have taxed : ∀ q q', q.Alike q' →
      Agree TaxedPrice.Alike (TaxedPrice.of (if c.feesIncludeTax then .sum q else .amount q) rate)
        (TaxedPrice.of (if c'.feesIncludeTax then .sum q' else .amount q') rate') := by
    intro q q' alike
    rw [← h.feesIncludeTax]
    refine TaxedPrice.of_alike ?_ hrate
    split <;> exact alike
  cases hfee with
  | none => exact taxed _ _ (.refl _)
  | some alike =>
      have converted := Quantity.convert_alike alike (even _ rfl) (even' _ rfl)
      rw [price, price, ← h.precision]
      exact converted.ofMeasured.bind fun _ _ _ _ => taxed _ _

/-- **The fees of a contract** do not depend on the writing of numbers. -/
theorem ofContract_alike (h : c.Alike c')
    (even : c.precision.DividesHalfEven (c.feeQuotients target))
    (even' : c.precision.DividesHalfEven (c'.feeQuotients target)) :
    Agree Alike (ofContract c target) (ofContract c' target) := by
  have half {c : Contract} {p : Precision} (even : p.DividesHalfEven (c.feeQuotients target))
      (q : Quantity) (stated : c.transfer = some q ∨ c.tax = some q ∨ c.margin = some q) :
      p.DividesHalfEven (q.quotients target) :=
    even.mono fun _ mem => ⟨q, stated, mem⟩
  refine (price_alike h h.transfer h.generalRate (fun _ hq => half even _ (.inl hq))
    fun _ hq => half even' _ (.inl hq)).bind fun _ _ _ _ transfer => ?_
  refine (price_alike h h.tax h.generalRate (fun _ hq => half even _ (.inr (.inl hq)))
    fun _ hq => half even' _ (.inr (.inl hq))).bind fun _ _ _ _ tax => ?_
  exact (price_alike h h.margin h.effectiveSellerRate (fun _ hq => half even _ (.inr (.inr hq)))
    fun _ hq => half even' _ (.inr (.inr hq))).bind fun _ _ _ _ margin =>
      .ok ⟨transfer, tax, margin⟩

/-- The quotients that are taken to sum up fees. -/
def quotients (fees : Fees) (p : Precision) : Set (Decimal × Decimal) :=
  fees.transfer.quotients p ∪ fees.tax.quotients p ∪ fees.margin.quotients p

/-- Those of each fee are among them. -/
theorem dividesHalfEven_each (even : p.DividesHalfEven (fees.quotients p)) :
    p.DividesHalfEven (fees.transfer.quotients p) ∧ p.DividesHalfEven (fees.tax.quotients p) ∧
      p.DividesHalfEven (fees.margin.quotients p) :=
  ⟨even.mono fun _ mem => .inl (.inl mem), even.mono fun _ mem => .inl (.inr mem),
    even.mono fun _ mem => .inr mem⟩

/-- **All fees together**, in one unit. -/
theorem sum_alike (h : fees.Alike fees')
    (units : fees.transfer.unit = target ∧ fees.tax.unit = target ∧ fees.margin.unit = target)
    (even : p.DividesHalfEven (fees.quotients p)) (even' : p.DividesHalfEven (fees'.quotients p)) :
    Agree Quantity.Alike (fees.sum p) (fees'.sum p) := by
  obtain ⟨transferUnit, taxUnit, marginUnit⟩ := units
  obtain ⟨evenTransfer, evenTax, evenMargin⟩ := dividesHalfEven_each even
  obtain ⟨evenTransfer', evenTax', evenMargin'⟩ := dividesHalfEven_each even'
  refine (TaxedPrice.sum_alike h.transfer evenTransfer evenTransfer').bind ?_
  intro transfer _ htransfer _ transfers
  refine (TaxedPrice.sum_alike h.tax evenTax evenTax').bind ?_
  intro tax _ htax _ taxes
  rw [← TaxedPrice.unit_sum htransfer] at transferUnit
  rw [← TaxedPrice.unit_sum htax] at taxUnit
  refine (Quantity.add_alike transfers taxes (taxUnit.trans transferUnit.symm)).ofMeasured.bind ?_
  intro both _ hboth _ boths
  refine (TaxedPrice.sum_alike h.margin evenMargin evenMargin').bind ?_
  intro margin _ hmargin _ margins
  rw [← TaxedPrice.unit_sum hmargin] at marginUnit
  obtain ⟨-, _, -, _, -, rfl⟩ := Quantity.add_eq_ok.mp (Outcome.ofMeasured_eq_ok.mp hboth)
  exact (Quantity.add_alike boths margins (marginUnit.trans transferUnit.symm)).ofMeasured

end Fees

end Tariff
