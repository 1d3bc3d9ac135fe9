import Tariff.Measure.Exponents
import Tariff.Proofs.Outcome
import Tariff.Proofs.Text.Reading

/-!
# Reading the text of a product

Dimensions and units share one written form, and what a reader has to find in it is the
same for both: the line, the factors on its two sides, and in each factor a label with a
raised exponent.

## Main definitions

* `Factors.above`, `Factors.below` — the factors on the two sides of the line
* `Factors.aboveText` — what is written above the line
* `Factors.exponentText` — what is written behind a label

## Main statements

* `Factors.cutAt_chars` — the line parts what stands above it from what stands below
* `Factors.pieces_side` — a side falls into what its factors fall into
* `Factors.mapM_pieces_side` — a side is read factor by factor

## Design notes

Nothing keeps a label from containing a separator.  What is shown of all labels is shown
for sides that fall into more pieces than they have factors, too: such a side is not
read back, and this has to be known where a reader is to be told what it cannot read.
-/

namespace Tariff.Factors

open Text

variable {factors : List (String × ℤ)} {label : String} {e : ℤ} {P : Char → Prop}

/-! ## The characters of a product -/

/-- Raised digits are no blanks, and nothing is parted at them. -/
theorem plain_of_isSuperscript {c : Char} (h : isSuperscript c = true) :
    isBlank c = false ∧ separates c = false ∧ isLine c = false := by
  have each : ['⁰', '¹', '²', '³', '⁴', '⁵', '⁶', '⁷', '⁸', '⁹'].all
      (fun c => isBlank c = false ∧ separates c = false ∧ isLine c = false) = true := by
    decide
  exact of_decide_eq_true (List.all_eq_true.mp each c (mem_of_isSuperscript h))

/-- **Exponents that are written**: all but those of size one and the least one of 32 bits. -/
theorem isShown_iff : isShown e = true ↔ 1 < e.natAbs ∧ e ≠ leastExponent := by
  simp [isShown]

/-- Of exponents in range, all that are larger than one are written. -/
theorem isShown_iff_of_range (range : e.natAbs < 2 ^ 31) : isShown e = true ↔ 1 < e.natAbs := by
  rw [isShown_iff, leastExponent]
  omega

/-- What stands behind the label of a factor. -/
def exponentText (e : ℤ) : List Char :=
  if isShown e then superscript e.natAbs else []

theorem factor_eq (label : String) (e : ℤ) : factor label e = label.toList ++ exponentText e := by
  rw [factor, exponentText]
  split
  · rfl
  · rw [List.append_nil]

theorem isSuperscript_of_mem_exponentText {c : Char} (h : c ∈ exponentText e) :
    isSuperscript c = true := by
  rw [exponentText] at h
  split at h
  · exact isSuperscript_of_mem_superscript h
  · cases h

/-- What holds of the characters of a label and of raised digits holds of a factor. -/
theorem forall_mem_factor (raised : ∀ c, isSuperscript c = true → P c)
    (labels : ∀ c ∈ label.toList, P c) : ∀ c ∈ factor label e, P c := by
  intro c mem
  rw [factor_eq, List.mem_append] at mem
  rcases mem with mem | mem
  · exact labels c mem
  · exact raised c (isSuperscript_of_mem_exponentText mem)

theorem side_singleton (label : String) (e : ℤ) : side [(label, e)] = factor label e := by
  simp [side]

/-- Between the first factor of a side and the others there is a dot. -/
theorem side_cons (label : String) (e : ℤ) (ne : factors ≠ []) :
    side ((label, e) :: factors) = factor label e ++ dot :: side factors := by
  obtain ⟨next, rest, rfl⟩ := List.exists_cons_of_ne_nil ne
  simp [side, List.intercalate]

/-- **What holds of all characters of a side**: of the dot, of raised digits and of the
characters of the labels. -/
theorem forall_mem_side (between : P dot) (raised : ∀ c, isSuperscript c = true → P c)
    (labels : ∀ label e, (label, e) ∈ factors → ∀ c ∈ label.toList, P c) :
    ∀ c ∈ side factors, P c := by
  induction factors with
  | nil => exact fun c mem => absurd mem (List.not_mem_nil)
  | cons head rest ih =>
      obtain ⟨label, e⟩ := head
      have first : ∀ c ∈ factor label e, P c :=
        forall_mem_factor raised (labels label e List.mem_cons_self)
      have others := ih fun other f mem => labels other f (List.mem_cons_of_mem _ mem)
      rcases eq_or_ne rest [] with rfl | ne
      · rwa [side_singleton]
      · rw [side_cons label e ne]
        intro c mem
        rcases List.mem_append.mp mem with mem | mem
        · exact first c mem
        · rcases List.mem_cons.mp mem with rfl | mem
          · exact between
          · exact others c mem

/-! ## The line -/

section Sides

variable {α : Type} {items : List (α × ℤ)} {item : α}

/-- The factors above the line. -/
def above (items : List (α × ℤ)) : List (α × ℤ) :=
  items.filter fun (_, e) => 0 < e

/-- The factors below the line. -/
def below (items : List (α × ℤ)) : List (α × ℤ) :=
  items.filter fun (_, e) => e < 0

theorem mem_above_iff : (item, e) ∈ above items ↔ (item, e) ∈ items ∧ 0 < e := by
  rw [above, List.mem_filter, decide_eq_true_eq]

theorem mem_below_iff : (item, e) ∈ below items ↔ (item, e) ∈ items ∧ e < 0 := by
  rw [below, List.mem_filter, decide_eq_true_eq]

/-- What changes no positive exponent changes nothing above the line. -/
theorem map_above {change : ℤ → ℤ} (h : ∀ e, 0 < e → change e = e) :
    (above items).map (fun (item, e) => (item, change e)) = above items := by
  refine (List.map_congr_left ?_).trans (List.map_id _)
  rintro ⟨item, e⟩ mem
  exact Prod.ext rfl (h e (mem_above_iff.mp mem).2)

/-- What changes no negative exponent changes nothing below it. -/
theorem map_below {change : ℤ → ℤ} (h : ∀ e, e < 0 → change e = e) :
    (below items).map (fun (item, e) => (item, change e)) = below items := by
  refine (List.map_congr_left ?_).trans (List.map_id _)
  rintro ⟨item, e⟩ mem
  exact Prod.ext rfl (h e (mem_below_iff.mp mem).2)

end Sides

/-- **What is written above the line**: the factors, or a one where there are none. -/
def aboveText (factors : List (String × ℤ)) : List Char :=
  if (above factors).isEmpty then ['1'] else side (above factors)

theorem chars_eq (factors : List (String × ℤ)) : chars factors =
    aboveText factors ++ if (below factors).isEmpty then [] else '/' :: side (below factors) := rfl

theorem forall_mem_aboveText (lone : P '1') (between : P dot)
    (raised : ∀ c, isSuperscript c = true → P c)
    (labels : ∀ label e, (label, e) ∈ above factors → ∀ c ∈ label.toList, P c) :
    ∀ c ∈ aboveText factors, P c := by
  rw [aboveText]
  split
  · exact List.forall_mem_singleton.mpr lone
  · exact forall_mem_side between raised labels

/-- A blank is written only as part of a label. -/
theorem isBlank_of_mem_chars
    (labels : ∀ label e, (label, e) ∈ factors → ∀ c ∈ label.toList, isBlank c = false) :
    ∀ c ∈ chars factors, isBlank c = false := by
  have raised : ∀ c, isSuperscript c = true → isBlank c = false :=
    fun c digit => (plain_of_isSuperscript digit).1
  intro c mem
  rw [chars_eq, List.mem_append] at mem
  rcases mem with mem | mem
  · refine forall_mem_aboveText (by decide) (by decide) raised ?_ c mem
    exact fun label e mem => labels label e (mem_above_iff.mp mem).1
  · split at mem
    · cases mem
    · rcases List.mem_cons.mp mem with rfl | mem
      · decide
      · refine forall_mem_side (by decide) raised ?_ c mem
        exact fun label e mem => labels label e (mem_below_iff.mp mem).1

/-- **The line parts what stands above it from what stands below**, if no label above has a
slash in it. -/
theorem cutAt_chars
    (slashless : ∀ label e, (label, e) ∈ above factors → ∀ c ∈ label.toList, isLine c = false) :
    cutAt isLine (chars factors) = (aboveText factors,
      if (below factors).isEmpty then none else some (side (below factors))) := by
  have front : ∀ c ∈ aboveText factors, isLine c = false :=
    forall_mem_aboveText (by decide) (by decide)
      (fun _ digit => (plain_of_isSuperscript digit).2.2) slashless
  rw [chars_eq]
  split
  · rw [List.append_nil, cutAt_of_forall front]
  · rw [cutAt_append front (by decide)]

/-! ## The factors of a side -/

/-- **A side falls into what its factors fall into.** -/
theorem pieces_side (ne : factors ≠ []) : pieces separates (side factors) =
    factors.flatMap fun (label, e) => pieces separates (factor label e) := by
  induction factors with
  | nil => exact absurd rfl ne
  | cons head rest ih =>
      obtain ⟨label, e⟩ := head
      rcases eq_or_ne rest [] with rfl | more
      · rw [side_singleton, List.flatMap_singleton]
      · rw [side_cons label e more, pieces_append (by decide), ih more, List.flatMap_cons]

/-- Labels without blanks make a side without blanks. -/
theorem trim_side
    (labels : ∀ label e, (label, e) ∈ factors → ∀ c ∈ label.toList, isBlank c = false) :
    trim (side factors) = side factors :=
  trim_of_forall (forall_mem_side (by decide) (fun _ digit => (plain_of_isSuperscript digit).1)
    labels)

/-- A label without a separator keeps its factor whole. -/
theorem pieces_factor (h : ∀ c ∈ label.toList, separates c = false) :
    pieces separates (factor label e) = [factor label e] :=
  pieces_of_forall (forall_mem_factor (fun _ digit => (plain_of_isSuperscript digit).2.1) h)

/-- One without blanks is not trimmed. -/
theorem trim_factor (h : ∀ c ∈ label.toList, isBlank c = false) :
    trim (factor label e) = factor label e :=
  trim_of_forall (forall_mem_factor (fun _ digit => (plain_of_isSuperscript digit).1) h)

variable {ε α β : Type} {read : List Char → Except ε β} {items : List α}
  {factorOf : α → String × ℤ} {value : α → β}

/-- **A side is read factor by factor**, if its labels have no blanks and no separators. -/
theorem mapM_pieces_side (ne : items ≠ [])
    (labels : ∀ item ∈ items, ∀ c ∈ (factorOf item).1.toList,
      isBlank c = false ∧ separates c = false)
    (reads : ∀ item ∈ items, read (factor (factorOf item).1 (factorOf item).2) = .ok (value item)) :
    (pieces separates (side (items.map factorOf))).mapM (fun piece => read (trim piece)) =
      .ok (items.map value) := by
  have whole : (items.map factorOf).flatMap (fun (label, e) => pieces separates (factor label e)) =
      items.map fun item => factor (factorOf item).1 (factorOf item).2 := by
    rw [List.flatMap_map, List.map_eq_flatMap]
    refine List.flatMap_congr fun item mem => ?_
    exact pieces_factor fun c char => (labels item mem c char).2
  rw [pieces_side (by simpa using ne), whole, Outcome.mapM_eq_ok, List.forall₂_map_left_iff,
    List.forall₂_map_right_iff, List.forall₂_same]
  intro item mem
  rw [trim_factor fun c char => (labels item mem c char).1, reads item mem]

end Tariff.Factors
