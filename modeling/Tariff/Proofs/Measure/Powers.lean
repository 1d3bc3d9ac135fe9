import Mathlib.Data.List.Lex
import Mathlib.Data.List.Nodup
import Mathlib.Data.List.Sort
import Mathlib.Data.Nat.Basic
import Tariff.Measure.Dimension

/-!
# Normal forms of powers

A product of powers has one normal form.  Which it is depends on the exponents of the
symbols alone, and so equal exponents make equal roots and equal dimensions.

## Main definitions

* `Powers.Before` — the order of the powers in a normal form
* `Dimension.IsNormal` — dimensions whose powers are in normal form

## Main statements

* `Text.order_eq_lt_iff` — the order of texts is that of their code points
* `Powers.collect_congr` — equal exponents make equal normal forms
* `Dimension.eq_of_exponentOf` — so do they for dimensions

## Design notes

In ascending order and without zero exponents, the powers at hand are those whose
exponent is not zero, each with that exponent.  Lists with the same elements in the
same strict order are equal.
-/

namespace Tariff

/-! ## The order of texts -/

namespace Text

/-- The order of characters is that of their code points. -/
theorem orderChars_iff (a b : List Char) :
    (orderChars a b = .lt ↔ a.map Char.toNat < b.map Char.toNat) ∧
      (orderChars a b = .gt ↔ b.map Char.toNat < a.map Char.toNat) := by
  induction a generalizing b with
  | nil => cases b <;> simp [orderChars]
  | cons c as ih =>
      cases b with
      | nil => simp [orderChars]
      | cons d bs =>
          rw [orderChars, List.map_cons, List.map_cons, List.cons_lt_cons_iff,
            List.cons_lt_cons_iff]
          obtain ⟨lt, gt⟩ := ih bs
          split
          · next less => simp [less, less.ne', less.not_gt]
          · split
            · next greater => simp [greater, greater.ne', greater.not_gt]
            · next notLess notGreater =>
                have same : c.toNat = d.toNat :=
                  le_antisymm (not_lt.mp notGreater) (not_lt.mp notLess)
                simp [same, lt, gt]

/-- **The order of texts** is that of their code points. -/
theorem order_eq_lt_iff (a b : String) :
    order a b = .lt ↔ a.toList.map Char.toNat < b.toList.map Char.toNat :=
  (orderChars_iff _ _).1

theorem order_eq_gt_iff (a b : String) : order a b = .gt ↔ order b a = .lt := by
  rw [order_eq_lt_iff]
  exact (orderChars_iff _ _).2

end Text

/-! ## Powers -/

namespace Powers

variable {powers p q : Powers} {symbol : String} {e : ℤ}

/-- **The order of powers** is that of their symbols. -/
def Before (a b : String × ℤ) : Prop :=
  Text.order a.1 b.1 = .lt

theorem Before.trans {a b c : String × ℤ} (first : Before a b) (second : Before b c) :
    Before a c := by
  rw [Before, Text.order_eq_lt_iff] at *
  exact first.trans second

theorem Before.asymm {a b : String × ℤ} (h : Before a b) : ¬ Before b a := by
  rw [Before, Text.order_eq_lt_iff] at *
  exact h.asymm

theorem Before.ne {a b : String × ℤ} (h : Before a b) : a.1 ≠ b.1 := by
  rw [Before, Text.order_eq_lt_iff] at h
  intro eq
  rw [eq] at h
  exact lt_irrefl _ h

/-- A power that is inserted brings in no symbol but its own. -/
theorem exists_mem_of_mem_insert {other : String} {f : ℤ} (h : (other, f) ∈ insert symbol e powers) :
    other = symbol ∨ ∃ g, (other, g) ∈ powers := by
  induction powers with
  | nil =>
      rw [insert, List.mem_singleton] at h
      exact .inl (Prod.mk.inj h).1
  | cons head rest ih =>
      obtain ⟨first, g⟩ := head
      rw [insert] at h
      split at h
      · rcases List.mem_cons.mp h with eq | mem
        · exact .inl (Prod.mk.inj eq).1
        · exact .inr ⟨f, mem⟩
      · rcases List.mem_cons.mp h with eq | mem
        · exact .inr ⟨g, (Prod.mk.inj eq).1 ▸ List.mem_cons_self⟩
        · exact .inr ⟨f, List.mem_cons_of_mem _ mem⟩
      · rcases List.mem_cons.mp h with eq | mem
        · exact .inr ⟨g, (Prod.mk.inj eq).1 ▸ List.mem_cons_self⟩
        · rcases ih mem with eq | ⟨k, mem⟩
          · exact .inl eq
          · exact .inr ⟨k, List.mem_cons_of_mem _ mem⟩

/-- A power is inserted in its place. -/
theorem insert_pairwise (h : powers.Pairwise Before) : (insert symbol e powers).Pairwise Before := by
  induction powers with
  | nil => exact List.pairwise_singleton _ _
  | cons head rest ih =>
      obtain ⟨first, g⟩ := head
      obtain ⟨least, sorted⟩ := List.pairwise_cons.mp h
      rw [insert]
      split
      · next less =>
          refine List.pairwise_cons.mpr ⟨?_, h⟩
          intro other mem
          have less : Before (symbol, e) (first, g) := less
          rcases List.mem_cons.mp mem with rfl | mem
          · exact less
          · exact less.trans (least other mem)
      · exact List.pairwise_cons.mpr ⟨least, sorted⟩
      · next greater =>
          refine List.pairwise_cons.mpr ⟨?_, ih sorted⟩
          rintro ⟨other, f⟩ mem
          rcases exists_mem_of_mem_insert mem with rfl | ⟨k, mem⟩
          · exact (Text.order_eq_gt_iff _ _).mp greater
          · exact least (other, k) mem

/-- **A normal form is in ascending order**, with each symbol once. -/
theorem collect_pairwise (powers : Powers) : powers.collect.Pairwise Before := by
  have sorted : (ordered powers).Pairwise Before := by
    induction powers with
    | nil => exact .nil
    | cons head rest ih => exact insert_pairwise ih
  exact sorted.filter _

/-- A symbol that is not named has the exponent zero. -/
theorem exponentOf_eq_zero (h : ∀ f, (symbol, f) ∉ powers) : powers.exponentOf symbol = 0 := by
  induction powers with
  | nil => rfl
  | cons head rest ih =>
      obtain ⟨first, g⟩ := head
      have different : first ≠ symbol := by
        rintro rfl
        exact h g List.mem_cons_self
      rw [exponentOf_cons, if_neg different, Int.zero_add,
        ih fun f mem => h f (List.mem_cons_of_mem _ mem)]

/-- Where each symbol is named once, its exponent is the one it is named with. -/
theorem exponentOf_of_mem (h : powers.Pairwise Before) (mem : (symbol, e) ∈ powers) :
    powers.exponentOf symbol = e := by
  induction powers with
  | nil => cases mem
  | cons head rest ih =>
      obtain ⟨first, g⟩ := head
      obtain ⟨least, sorted⟩ := List.pairwise_cons.mp h
      rw [exponentOf_cons]
      rcases List.mem_cons.mp mem with eq | mem
      · obtain ⟨rfl, rfl⟩ := Prod.mk.inj eq
        have once : ∀ f, (symbol, f) ∉ rest := fun f mem => (least _ mem).ne rfl
        rw [if_pos rfl, exponentOf_eq_zero once, Int.add_zero]
      · rw [if_neg (least _ mem).ne, Int.zero_add, ih sorted mem]

/-- **What ordered powers name** are the exponents that are not zero. -/
theorem mem_iff (sorted : powers.Pairwise Before)
    (nonzero : ∀ symbol e, (symbol, e) ∈ powers → e ≠ 0) :
    (symbol, e) ∈ powers ↔ e ≠ 0 ∧ powers.exponentOf symbol = e := by
  constructor
  · intro mem
    exact ⟨nonzero symbol e mem, exponentOf_of_mem sorted mem⟩
  · rintro ⟨some, rfl⟩
    obtain ⟨f, mem⟩ : ∃ f, (symbol, f) ∈ powers := by
      by_contra none
      exact some (exponentOf_eq_zero (not_exists.mp none))
    rwa [exponentOf_of_mem sorted mem]

/-- What a normal form names are the exponents that are not zero. -/
theorem mem_collect_iff :
    (symbol, e) ∈ powers.collect ↔ e ≠ 0 ∧ powers.exponentOf symbol = e := by
  rw [mem_iff (collect_pairwise powers) fun _ _ => ne_zero_of_mem_collect, exponentOf_collect]

/-- Ordered powers that name the same are the same. -/
theorem eq_of_mem_iff (hp : p.Pairwise Before) (hq : q.Pairwise Before)
    (same : ∀ symbol e, (symbol, e) ∈ p ↔ (symbol, e) ∈ q) : p = q := by
  have nodup : ∀ {powers : Powers}, powers.Pairwise Before → powers.Nodup := by
    intro powers sorted
    refine sorted.imp ?_
    intro a b before eq
    exact before.ne (congrArg Prod.fst eq)
  have perm : p.Perm q :=
    (List.perm_ext_iff_of_nodup (nodup hp) (nodup hq)).mpr fun ⟨symbol, e⟩ => same symbol e
  exact perm.eq_of_pairwise (fun a b _ _ first second => absurd second first.asymm) hp hq

/-- **Equal exponents make equal normal forms.** -/
theorem collect_congr (h : ∀ symbol, p.exponentOf symbol = q.exponentOf symbol) :
    p.collect = q.collect := by
  refine eq_of_mem_iff (collect_pairwise p) (collect_pairwise q) fun symbol e => ?_
  rw [mem_collect_iff, mem_collect_iff, h]

/-- Ordered powers without zero exponents are their own normal form. -/
theorem collect_eq_self (sorted : powers.Pairwise Before)
    (nonzero : ∀ symbol e, (symbol, e) ∈ powers → e ≠ 0) : powers.collect = powers := by
  refine eq_of_mem_iff (collect_pairwise powers) sorted fun symbol e => ?_
  rw [mem_collect_iff, mem_iff sorted nonzero]

/-- A normal form is its own. -/
theorem collect_collect (powers : Powers) : powers.collect.collect = powers.collect :=
  collect_congr fun _ => exponentOf_collect powers _

end Powers

/-! ## Dimensions -/

namespace Dimension

variable {a b d : Dimension}

/-- **Dimensions in normal form.** -/
def IsNormal (d : Dimension) : Prop :=
  ofPowers d.powers = d

instance (d : Dimension) : Decidable d.IsNormal :=
  inferInstanceAs (Decidable (ofPowers d.powers = d))

/-- Equal exponents make equal dimensions. -/
theorem ofPowers_congr {p q : Powers} (h : ∀ symbol, p.exponentOf symbol = q.exponentOf symbol) :
    ofPowers p = ofPowers q := by
  rw [ofPowers, ofPowers, Powers.collect_congr h]

/-- What is brought into normal form is in normal form. -/
theorem isNormal_ofPowers (powers : Powers) : (ofPowers powers).IsNormal :=
  ofPowers_congr (exponentOf_ofPowers powers)

/-- **Dimensions in normal form** are equal when their exponents are. -/
theorem eq_of_exponentOf (ha : a.IsNormal) (hb : b.IsNormal)
    (h : ∀ symbol, a.exponentOf symbol = b.exponentOf symbol) : a = b := by
  rw [← ha, ← hb]
  exact ofPowers_congr h

/-- The dimension of plain numbers has no exponents. -/
@[simp] theorem exponentOf_none (symbol : String) : none.exponentOf symbol = 0 := rfl

end Dimension

end Tariff
