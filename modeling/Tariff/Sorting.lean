/-!
# Sorting

Lists put into ascending order by insertion.

## Main definitions

* `insertSorted` — an element put in front of the first one that it does not come after
* `sortBy` — a list in ascending order

## Main statements

* `sortBy_perm` — sorting neither loses nor adds elements
* `sortBy_pairwise` — in a sorted list no element comes after a later one

## Design notes

`later a b` says that `a` belongs behind `b`.  An element is only moved behind those that it comes
after, so that elements of equal rank keep their order.
-/

namespace Tariff

variable {α : Type}

/-- An element put in front of the first one that it does not come after. -/
def insertSorted (later : α → α → Bool) (a : α) : List α → List α
  | [] => [a]
  | b :: rest => if later a b then b :: insertSorted later a rest else a :: b :: rest

/-- **Sorted list.** -/
def sortBy (later : α → α → Bool) : List α → List α
  | [] => []
  | a :: rest => insertSorted later a (sortBy later rest)

/-- Insertion adds the element and nothing else. -/
theorem insertSorted_perm (later : α → α → Bool) (a : α) (list : List α) :
    (insertSorted later a list).Perm (a :: list) := by
  induction list with
  | nil => exact .refl _
  | cons b rest ih =>
    simp only [insertSorted]
    split
    · exact (List.Perm.cons b ih).trans (.swap a b rest)
    · exact .refl _

/-- Sorting neither loses nor adds elements. -/
theorem sortBy_perm (later : α → α → Bool) (list : List α) : (sortBy later list).Perm list := by
  induction list with
  | nil => exact .refl _
  | cons a rest ih => exact (insertSorted_perm later a _).trans (List.Perm.cons a ih)

/-- Insertion keeps a list sorted, where `later` is the strict part of a total order. -/
theorem insertSorted_pairwise {later : α → α → Bool}
    (asymm : ∀ a b, later a b = true → later b a = false)
    (trans : ∀ a b c, later b a = false → later c b = false → later c a = false)
    (a : α) {list : List α} (h : list.Pairwise fun x y => later x y = false) :
    (insertSorted later a list).Pairwise fun x y => later x y = false := by
  induction list with
  | nil => simp [insertSorted]
  | cons b rest ih =>
    obtain ⟨hb, hrest⟩ := List.pairwise_cons.mp h
    simp only [insertSorted]
    split
    · next hl =>
      refine List.pairwise_cons.mpr ⟨fun x hx => ?_, ih hrest⟩
      rcases List.mem_cons.mp ((insertSorted_perm later a rest).mem_iff.mp hx) with rfl | hx
      · exact asymm _ _ hl
      · exact hb x hx
    · next hl =>
      have hab : later a b = false := by simpa using hl
      refine List.pairwise_cons.mpr ⟨fun x hx => ?_, h⟩
      rcases List.mem_cons.mp hx with rfl | hx
      · exact hab
      · exact trans _ _ _ (hb x hx) hab

/-- In a sorted list no element comes after a later one. -/
theorem sortBy_pairwise {later : α → α → Bool}
    (asymm : ∀ a b, later a b = true → later b a = false)
    (trans : ∀ a b c, later b a = false → later c b = false → later c a = false)
    (list : List α) : (sortBy later list).Pairwise fun x y => later x y = false := by
  induction list with
  | nil => exact .nil
  | cons a rest ih => exact insertSorted_pairwise asymm trans a ih

example : sortBy (fun a b => b < a) [3, 1, 2, 1] = [1, 1, 2, 3] := by decide

end Tariff
