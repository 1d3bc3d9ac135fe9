import Tariff.Proofs.Outcome

/-!
# Calculations side by side

One calculation is made on two inputs that differ in some respect only.  The two
runs are followed step by step: as long as the results of a step are related, so
are the operands of the next one, and neither run fails where the other does not.

## Main definitions

* `Outcome.Agree` — both calculations fail, or both succeed with related results

## Main statements

* `Outcome.Agree.bind` — one step after the other
* `Outcome.Agree.mapM` — a step for each element of two lists

## Design notes

The relation says nothing about which errors two failing calculations end with:
what they are about to say may differ where their inputs do.
-/

namespace Tariff.Outcome

variable {ε α β γ δ : Type} {r : α → β → Prop} {s : γ → δ → Prop}

/-- **Calculations that agree** both fail, or both succeed with related results. -/
inductive Agree (r : α → β → Prop) : Except ε α → Except ε β → Prop
  /-- Both succeed. -/
  | ok {a : α} {b : β} (related : r a b) : Agree r (.ok a) (.ok b)
  /-- Both fail. -/
  | error (e f : ε) : Agree r (.error e) (.error f)

namespace Agree

variable {x : Except ε α} {y : Except ε β}

/-- Of calculations that agree, one succeeds when the other does. -/
theorem exists_ok (h : Agree r x y) {a : α} (hx : x = .ok a) : ∃ b, y = .ok b ∧ r a b := by
  subst hx
  cases h with
  | ok related => exact ⟨_, rfl, related⟩

/-- A calculation agrees with itself. -/
theorem refl (x : Except ε α) : Agree (· = ·) x x := by
  cases x with
  | ok a => exact .ok rfl
  | error e => exact .error e e

/-- **One step after the other.**  Steps agree when they do on related results of
the steps before. -/
theorem bind {f : α → Except ε γ} {g : β → Except ε δ} (h : Agree r x y)
    (step : ∀ a b, x = .ok a → y = .ok b → r a b → Agree s (f a) (g b)) :
    Agree s (x >>= f) (y >>= g) := by
  cases h with
  | ok related => exact step _ _ rfl rfl related
  | error e f => exact .error e f

/-- **A step for each element of two lists** that are related element by element. -/
theorem mapM {t : α → β → Prop} {f : α → Except ε γ} {g : β → Except ε δ} {list : List α}
    {other : List β} (h : List.Forall₂ t list other)
    (step : ∀ a b, a ∈ list → b ∈ other → t a b → Agree s (f a) (g b)) :
    Agree (List.Forall₂ s) (list.mapM f) (other.mapM g) := by
  induction h with
  | nil => exact .ok .nil
  | cons head _ ih =>
      have rest := ih fun a b ha hb =>
        step a b (List.mem_cons_of_mem _ ha) (List.mem_cons_of_mem _ hb)
      rw [List.mapM_cons, List.mapM_cons]
      refine (step _ _ List.mem_cons_self List.mem_cons_self head).bind fun a b _ _ first => ?_
      exact rest.bind fun as bs _ _ others => .ok (.cons first others)

/-- The same for steps without results. -/
theorem forM {t : α → β → Prop} {f : α → Except ε PUnit} {g : β → Except ε PUnit} {list : List α}
    {other : List β} (h : List.Forall₂ t list other)
    (step : ∀ a b, t a b → Agree (· = ·) (f a) (g b)) :
    Agree (· = ·) (list.forM f) (other.forM g) := by
  induction h with
  | nil => exact .ok rfl
  | cons head _ ih => exact (step _ _ head).bind fun _ _ _ _ _ => ih

/-- Checks agree when they accept the same. -/
theorem of_iff {x y : Except ε PUnit} (h : x = .ok ⟨⟩ ↔ y = .ok ⟨⟩) : Agree (· = ·) x y := by
  cases x with
  | ok a =>
      rw [h.mp rfl]
      exact .ok rfl
  | error e =>
      cases y with
      | ok b => cases h.mpr rfl
      | error f => exact .error e f

/-- A measured result as a step of pricing. -/
theorem ofMeasured {x : Measured α} {y : Measured β} (h : Agree r x y) :
    Agree r (Priced.ofMeasured x) (Priced.ofMeasured y) := by
  cases h with
  | ok related => exact .ok related
  | error e f => exact .error _ _

/-- Results for which there was room. -/
theorem orOverflow {x : Option α} {y : Option β} (h : Option.Rel r x y) :
    Agree r (Measured.orOverflow x) (Measured.orOverflow y) := by
  cases h with
  | some related => exact .ok related
  | none => exact .error _ _

end Agree

/-- Related results of which one exists when the other does. -/
theorem rel_of_isSome {x : Option α} {y : Option β} (room : x.isSome = true ↔ y.isSome = true)
    (value : ∀ a b, x = some a → y = some b → r a b) : Option.Rel r x y := by
  cases x with
  | none =>
      cases y with
      | none => exact .none
      | some b => simp at room
  | some a =>
      cases y with
      | none => simp at room
      | some b => exact .some (value a b rfl rfl)

/-- One step after the other, where results may be missing. -/
theorem rel_bind {x : Option α} {y : Option β} {f : α → Option γ} {g : β → Option δ}
    (h : Option.Rel r x y) (step : ∀ a b, r a b → Option.Rel s (f a) (g b)) :
    Option.Rel s (x.bind f) (y.bind g) := by
  cases h with
  | some related => exact step _ _ related
  | none => exact .none

end Tariff.Outcome
