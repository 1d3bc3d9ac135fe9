import Mathlib.Tactic.Ring
import Tariff.Proofs.Measure.DimensionGroup
import Tariff.Proofs.Text.Bytes

/-!
# Roots of dimensions

A dimension has an `n`-th root when `n` divides each of its exponents.  The root is then the one
dimension of which it is the `n`-th power; otherwise the error names the first exponent that is in
the way.

## Main definitions

* `Dimension.IsFirstIndivisible` — the first base whose exponent a number does not divide

## Main statements

* `Dimension.isCanonical_iff` — canonical dimensions are those in normal form
* `Dimension.pow_injective` — no two canonical dimensions have the same power
* `Dimension.root_eq_ok` — roots are the inverse of powers
* `Dimension.root_eq_error` — what is said where there is no root
* `Dimension.root_sound` — all of this together, with roots of roots

## Design notes

Quotients and remainders are those of a division that cuts towards zero.  Where nothing is left over
this is the division of the integers, also for negative exponents and negative `n`, and so all that
is used of it is that a quotient times `n` is the exponent again.

The powers of a canonical dimension are in the order of their symbols, and the search for an
exponent that is in the way goes through them in this order.  The first that it finds therefore has
the first symbol.
-/

namespace Tariff

namespace Powers

variable {powers : Powers} {n : ℤ}

/-- What is divided by a number and taken times it is what it was, if the number divides all
exponents. -/
theorem scale_map_tdiv (divides : ∀ symbol e, (symbol, e) ∈ powers → n ∣ e) :
    scale (powers.map fun (symbol, e) => (symbol, e.tdiv n)) n = powers := by
  rw [scale, List.map_map]
  conv_rhs => rw [← List.map_id powers]
  refine List.map_congr_left ?_
  rintro ⟨symbol, e⟩ mem
  exact congrArg (Prod.mk symbol) (Int.tdiv_mul_cancel (divides symbol e mem))

end Powers

namespace Dimension

variable {d e r : Dimension} {k m n : ℤ} {symbol : String} {error : MeasureError}

/-! ## Canonical dimensions -/

/-- **Canonical dimensions** are those in normal form. -/
theorem isCanonical_iff : d.IsCanonical ↔ d.IsNormal := by
  refine ⟨fun canonical => ?_, IsNormal.isCanonical⟩
  have stored := Powers.collect_eq_self canonical.ordered canonical.nonzero
  rw [IsNormal, ofPowers, stored]
  split
  · next symbol single => exact (canonical.base symbol single).symm
  · next other =>
      cases d with
      | base symbol => exact absurd rfl (other symbol)
      | product powers => rfl

/-- What is named in a dimension are the exponents that are not zero. -/
theorem IsNormal.mem_powers_iff (normal : d.IsNormal) :
    (symbol, k) ∈ d.powers ↔ k ≠ 0 ∧ d.exponentOf symbol = k :=
  Powers.mem_iff normal.isCanonical.ordered normal.isCanonical.nonzero

/-- A number divides all exponents when it divides those that are named. -/
theorem dvd_exponentOf_iff (normal : d.IsNormal) :
    (∀ symbol, n ∣ d.exponentOf symbol) ↔ ∀ symbol k, (symbol, k) ∈ d.powers → n ∣ k := by
  constructor
  · intro divides symbol k mem
    rw [← (normal.mem_powers_iff.mp mem).2]
    exact divides symbol
  · intro divides symbol
    rcases eq_or_ne (d.exponentOf symbol) 0 with zero | some
    · rw [zero]
      exact dvd_zero n
    · exact divides symbol _ (normal.mem_powers_iff.mpr ⟨some, rfl⟩)

/-- **No two canonical dimensions have the same power.** -/
theorem pow_injective (nonzero : n ≠ 0) (hd : d.IsNormal) (he : e.IsNormal)
    (same : d.pow n = e.pow n) : d = e := by
  refine eq_of_exponentOf hd he fun symbol => ?_
  refine mul_right_cancel₀ nonzero ?_
  rw [← exponentOf_pow, same, exponentOf_pow]

/-! ## Roots and powers -/

/-- **The root of a dimension** whose exponents are divided. -/
theorem root_of_dvd (nonzero : n ≠ 0) (divides : ∀ symbol k, (symbol, k) ∈ d.powers → n ∣ k) :
    d.root n = .ok (ofPowers (d.powers.map fun (symbol, k) => (symbol, k.tdiv n))) := by
  have found : d.powers.find? (fun (_, k) => k.tmod n ≠ 0) = Option.none := by
    rw [List.find?_eq_none]
    rintro ⟨symbol, k⟩ mem
    simpa using Int.tmod_eq_zero_of_dvd (divides symbol k mem)
  rw [root, if_neg nonzero, found]

/-- Its power is the dimension. -/
theorem pow_root_of_dvd (normal : d.IsNormal)
    (divides : ∀ symbol k, (symbol, k) ∈ d.powers → n ∣ k) :
    (ofPowers (d.powers.map fun (symbol, k) => (symbol, k.tdiv n))).pow n = d := by
  refine eq_of_exponentOf (isNormal_pow _ _) normal fun symbol => ?_
  rw [exponentOf_pow, exponentOf_ofPowers, ← Powers.exponentOf_scale,
    Powers.scale_map_tdiv divides]
  rfl

/-- **Where there is a root**, each exponent is divided. -/
theorem exists_root_iff (nonzero : n ≠ 0) (normal : d.IsNormal) :
    (∃ r, d.root n = .ok r) ↔ ∀ symbol, n ∣ d.exponentOf symbol := by
  rw [dvd_exponentOf_iff normal]
  refine ⟨?_, fun divides => ⟨_, root_of_dvd nonzero divides⟩⟩
  rintro ⟨r, h⟩ symbol k mem
  rw [root, if_neg nonzero] at h
  split at h
  · cases h
  · next none =>
      have left := List.find?_eq_none.mp none (symbol, k) mem
      exact Int.dvd_of_tmod_eq_zero (by simpa using left)

/-- **Roots are the inverse of powers.** -/
theorem root_eq_ok (nonzero : n ≠ 0) (normal : d.IsNormal) :
    d.root n = .ok r ↔ r.IsNormal ∧ r.pow n = d := by
  -- where all exponents are divided, the root is known, and so is its power
  have known (divides : ∀ symbol, n ∣ d.exponentOf symbol) :
      ∃ r, d.root n = .ok r ∧ r.IsNormal ∧ r.pow n = d := by
    rw [dvd_exponentOf_iff normal] at divides
    exact ⟨_, root_of_dvd nonzero divides, isNormal_ofPowers _, pow_root_of_dvd normal divides⟩
  constructor
  · intro h
    obtain ⟨other, h', result⟩ := known ((exists_root_iff nonzero normal).mp ⟨r, h⟩)
    obtain rfl := Except.ok.inj (h.symm.trans h')
    exact result
  · rintro ⟨hr, rfl⟩
    have divides (symbol : String) : n ∣ (r.pow n).exponentOf symbol := by
      rw [exponentOf_pow]
      exact dvd_mul_left n _
    obtain ⟨other, h, hother, same⟩ := known divides
    obtain rfl := pow_injective nonzero hr hother same.symm
    exact h

/-- The root of a power is the dimension that was raised to it. -/
theorem root_pow (nonzero : n ≠ 0) (normal : d.IsNormal) : (d.pow n).root n = .ok d :=
  (root_eq_ok nonzero (isNormal_pow d n)).mpr ⟨normal, rfl⟩

/-- **A root of a root** is a root of their product. -/
theorem root_root (hn : n ≠ 0) (hm : m ≠ 0) (normal : d.IsNormal) :
    (∃ r, d.root n = .ok r ∧ r.root m = .ok e) ↔ d.root (n * m) = .ok e := by
  rw [root_eq_ok (mul_ne_zero hn hm) normal, mul_comm, pow_mul]
  constructor
  · rintro ⟨r, first, second⟩
    obtain ⟨hr, rfl⟩ := (root_eq_ok hn normal).mp first
    obtain ⟨he, rfl⟩ := (root_eq_ok hm hr).mp second
    exact ⟨he, rfl⟩
  · rintro ⟨he, rfl⟩
    exact ⟨e.pow m, root_pow hn (isNormal_pow e m), root_pow hm he⟩

/-! ## Where there is none -/

/-- **The first base whose exponent a number does not divide**, in the order of the bytes of their
symbols. -/
structure IsFirstIndivisible (d : Dimension) (n : ℤ) (symbol : String) : Prop where
  /-- Its exponent is not divided. -/
  indivisible : ¬ n ∣ d.exponentOf symbol
  /-- All others of this kind come behind it. -/
  first : ∀ other, ¬ n ∣ d.exponentOf other → other ≠ symbol →
    Text.bytes symbol < Text.bytes other

/-- There is only one. -/
theorem IsFirstIndivisible.unique {other : String} (h : d.IsFirstIndivisible n symbol)
    (h' : d.IsFirstIndivisible n other) : symbol = other := by
  by_contra different
  exact List.lt_asymm (h.first other h'.indivisible (Ne.symm different))
    (h'.first symbol h.indivisible different)

/-- The search for an exponent that is in the way ends at the first. -/
theorem isFirstIndivisible_of_find? (normal : d.IsNormal)
    (found : d.powers.find? (fun (_, k) => k.tmod n ≠ 0) = some (symbol, k)) :
    d.IsFirstIndivisible n symbol ∧ d.exponentOf symbol = k := by
  obtain ⟨left, before, behind, split, divided⟩ := List.find?_eq_some_iff_append.mp found
  have exponent : d.exponentOf symbol = k :=
    (normal.mem_powers_iff.mp (split ▸ List.mem_append_right _ List.mem_cons_self)).2
  refine ⟨⟨?_, fun other indivisible different => ?_⟩, exponent⟩
  · rw [exponent]
    intro divides
    simp [Int.tmod_eq_zero_of_dvd divides] at left
  · have named : (other, d.exponentOf other) ∈ d.powers := by
      refine normal.mem_powers_iff.mpr ⟨?_, rfl⟩
      intro zero
      exact indivisible (zero ▸ dvd_zero n)
    rw [split, List.mem_append, List.mem_cons] at named
    rcases named with among | same | among
    · -- in front of the one that is found all are divided
      refine absurd (Int.dvd_of_tmod_eq_zero ?_) indivisible
      simpa using divided _ among
    · exact absurd (Prod.mk.inj same).1 different
    · have ordered := normal.isCanonical.ordered
      rw [split] at ordered
      have behind := (List.pairwise_cons.mp (List.pairwise_append.mp ordered).2.1).1 _ among
      exact (Text.order_eq_lt_iff_bytes _ _).mp behind

/-- **Where there is no root**, the error names the number and the first exponent that it does not
divide. -/
theorem root_eq_error (nonzero : n ≠ 0) (normal : d.IsNormal) :
    d.root n = .error error ↔ ∃ symbol, d.IsFirstIndivisible n symbol ∧
      error = .indivisibleExponent (d.exponentOf symbol) n := by
  have said : ∀ error, d.root n = .error error → ∃ symbol, d.IsFirstIndivisible n symbol ∧
      error = .indivisibleExponent (d.exponentOf symbol) n := by
    intro error h
    rw [root, if_neg nonzero] at h
    split at h
    · next symbol k found =>
        obtain ⟨first, rfl⟩ := isFirstIndivisible_of_find? normal found
        exact ⟨symbol, first, (Except.error.inj h).symm⟩
    · cases h
  refine ⟨said error, ?_⟩
  rintro ⟨symbol, first, rfl⟩
  cases h : d.root n with
  | ok r =>
      exact absurd ((exists_root_iff nonzero normal).mp ⟨r, h⟩ symbol) first.indivisible
  | error error =>
      obtain ⟨other, first', rfl⟩ := said error h
      rw [first.unique first']

/-- **Roots of dimensions.**  A canonical dimension has an `n`-th root when `n` divides all of its
exponents.  The root is the only canonical dimension with this dimension as its `n`-th power, and
that of an `n`-th power is what was raised to it.  Otherwise the error names `n` and the exponent of
the first base that it does not divide.  Roots can be taken one after the other or at once. -/
theorem root_sound (canonical : d.IsCanonical) (nonzero : n ≠ 0) :
    ((∃ r, d.root n = .ok r) ↔ ∀ symbol, n ∣ d.exponentOf symbol) ∧
    (∀ r, d.root n = .ok r → r.IsCanonical ∧ r.pow n = d ∧
      ∀ other : Dimension, other.IsCanonical → other.pow n = d → other = r) ∧
    (d.pow n).root n = .ok d ∧
    (∀ error, d.root n = .error error ↔ ∃ symbol, d.IsFirstIndivisible n symbol ∧
      error = .indivisibleExponent (d.exponentOf symbol) n) ∧
    ∀ m, m ≠ 0 → ∀ e, (∃ r, d.root n = .ok r ∧ r.root m = .ok e) ↔ d.root (n * m) = .ok e := by
  have normal := isCanonical_iff.mp canonical
  refine ⟨exists_root_iff nonzero normal, fun r h => ?_, root_pow nonzero normal,
    fun _ => root_eq_error nonzero normal, fun m hm e => root_root nonzero hm normal⟩
  obtain ⟨hr, power⟩ := (root_eq_ok nonzero normal).mp h
  refine ⟨hr.isCanonical, power, fun other hother same => ?_⟩
  exact pow_injective nonzero (isCanonical_iff.mp hother) hr (same.trans power.symm)

/-- The reciprocal of a squared energy has its root with a negative number.  Energy itself has no
fourth root: the first exponent in the way is that of the squared length. -/
theorem root_sound_energy :
    ((energy.pow 2).inverse.root (-2) = .ok energy ∧
      ∀ other : Dimension, other.IsCanonical → other.pow (-2) = (energy.pow 2).inverse →
        other = energy) ∧
    energy.root (-4) = .error (.indivisibleExponent 2 (-4)) ∧
      ∃ symbol, energy.IsFirstIndivisible (-4) symbol ∧ energy.exponentOf symbol = 2 := by
  have inverse : (energy.pow 2).inverse.IsCanonical := (isNormal_pow _ _).isCanonical
  have single : energy.IsCanonical := (isNormal_ofPowers _).isCanonical
  have taken : (energy.pow 2).inverse.root (-2) = .ok energy := by decide
  have failed : energy.root (-4) = .error (.indivisibleExponent 2 (-4)) := by decide
  obtain ⟨-, only, -⟩ := root_sound inverse (n := -2) (by decide)
  obtain ⟨-, -, -, said, -⟩ := root_sound single (n := -4) (by decide)
  obtain ⟨symbol, first, named⟩ := (said _).mp failed
  exact ⟨⟨taken, (only energy taken).2.2⟩, failed, symbol, first,
    (MeasureError.indivisibleExponent.inj named).1.symm⟩

end Dimension

end Tariff
