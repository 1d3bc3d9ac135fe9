import Tariff.Proofs.Outcome

/-!
# Calculations that fail in known ways

Of a calculation it may be known that it fails in certain ways only.  The steps of a
calculation hand their errors on, and so what is known of each step is known of the
calculation as a whole.

## Main definitions

* `Outcome.FailsBy` — a calculation all of whose errors are of one kind
* `Outcome.fault?` — the error with which a calculation fails

## Main statements

* `Outcome.FailsBy.bind` — one step after the other
* `Outcome.FailsBy.mapM` — a step for each element of a list

## Design notes

Nothing is said about whether a calculation fails.  A later step may rest on results
of earlier ones, since it is taken only where these succeed.
-/

namespace Tariff.Outcome

variable {ε α β : Type} {P Q : ε → Prop}

/-- **A calculation that fails in certain ways only.** -/
def FailsBy (P : ε → Prop) (x : Except ε α) : Prop :=
  ∀ e, x = .error e → P e

namespace FailsBy

variable {x : Except ε α}

/-- What succeeds does not fail. -/
theorem ok (a : α) : FailsBy P (.ok a : Except ε α) :=
  fun _ h => nomatch h

theorem pure (a : α) : FailsBy P (Pure.pure a : Except ε α) :=
  ok a

theorem of_eq_ok {a : α} (h : x = .ok a) : FailsBy P x :=
  h ▸ ok a

theorem error {e : ε} (h : P e) : FailsBy P (.error e : Except ε α) := by
  intro f same
  exact Except.error.inj same ▸ h

theorem imp (h : FailsBy P x) (wider : ∀ e, P e → Q e) : FailsBy Q x :=
  fun e fails => wider e (h e fails)

/-- **One step after the other.** -/
theorem bind {f : α → Except ε β} (h : FailsBy P x) (step : ∀ a, x = .ok a → FailsBy P (f a)) :
    FailsBy P (x >>= f) := by
  cases x with
  | ok a => exact step a rfl
  | error e => exact error (h e rfl)

/-- After a step that succeeds only the next ones can fail. -/
theorem after {f : α → Except ε β} {a : α} (h : x = .ok a) (step : FailsBy P (f a)) :
    FailsBy P (x >>= f) := by
  subst h
  exact step

/-- **A step for each element of a list.** -/
theorem mapM {f : α → Except ε β} {list : List α} (step : ∀ a ∈ list, FailsBy P (f a)) :
    FailsBy P (list.mapM f) := by
  induction list with
  | nil => exact ok []
  | cons a rest ih =>
      rw [List.mapM_cons]
      refine (step a List.mem_cons_self).bind fun b _ => ?_
      refine (ih fun a mem => step a (List.mem_cons_of_mem _ mem)).bind fun bs _ => ?_
      exact ok (b :: bs)

/-- Where there is no room, a result overflows. -/
theorem orOverflow (x : Option α) : FailsBy (· = .overflow) (Measured.orOverflow x) := by
  cases x with
  | some a => exact ok a
  | none => exact error rfl

/-- A measured result as a step of pricing. -/
theorem ofMeasured {P : PricingError → Prop} {x : Measured α} (h : FailsBy (fun e => P (.measure e)) x) :
    FailsBy P (Priced.ofMeasured x) := by
  cases x with
  | ok a => exact ok a
  | error e => exact error (h e rfl)

/-- It succeeds, or it fails in one of the ways. -/
theorem cases (h : FailsBy P x) : (∃ a, x = .ok a) ∨ ∃ e, x = .error e ∧ P e := by
  cases x with
  | ok a => exact .inl ⟨a, rfl⟩
  | error e => exact .inr ⟨e, rfl, h e rfl⟩

end FailsBy

/-- The error with which a calculation fails. -/
def fault? : Except ε α → Option ε
  | .ok _ => none
  | .error e => some e

theorem fault?_eq_some {x : Except ε α} {e : ε} : fault? x = some e ↔ x = .error e := by
  cases x <;> simp [fault?]

end Tariff.Outcome
