import Mathlib.Data.List.Forall2
import Tariff.Pricing.Error

/-!
# Calculations that succeed

Whatever is measured or priced may fail, and the steps of a calculation stop at
the first failure.  A success therefore tells of the success of every step.

## Main statements

* `Outcome.bind_eq_ok` — a sequence of steps succeeds when each of them does
* `Outcome.mapM_eq_ok`, `Outcome.mapM_congr` — a step for each element of a list
-/

namespace Tariff.Outcome

variable {ε α β : Type}

/-- **A sequence of steps succeeds when each of them does.** -/
theorem bind_eq_ok {x : Except ε α} {f : α → Except ε β} {b : β} :
    (x >>= f) = .ok b ↔ ∃ a, x = .ok a ∧ f a = .ok b := by
  cases x <;> simp [bind, Except.bind]

theorem pure_eq_ok {a b : α} : (pure a : Except ε α) = .ok b ↔ a = b := by
  simp [pure, Except.pure]

theorem map_eq_ok {x : Except ε α} {f : α → β} {b : β} :
    (f <$> x) = .ok b ↔ ∃ a, x = .ok a ∧ f a = b := by
  cases x <;> simp [Functor.map, Except.map]

theorem orOverflow_eq_ok {x : Option α} {a : α} :
    Measured.orOverflow x = .ok a ↔ x = some a := by
  cases x <;> simp [Measured.orOverflow]

theorem ofMeasured_eq_ok {x : Measured α} {a : α} :
    Priced.ofMeasured x = .ok a ↔ x = .ok a := by
  cases x <;> simp [Priced.ofMeasured]

/-- What is seen to succeed has a result. -/
theorem exists_of_isOk {x : Except ε α} (h : x.isOk = true) : ∃ a, x = .ok a := by
  cases x with
  | ok a => exact ⟨a, rfl⟩
  | error e => cases h

/-- **A step for each element of a list succeeds when it does for every
element.** -/
theorem mapM_eq_ok {f : α → Except ε β} {list : List α} {results : List β} :
    list.mapM f = .ok results ↔ List.Forall₂ (fun a b => f a = .ok b) list results := by
  induction list generalizing results with
  | nil =>
      rw [List.mapM_nil, pure_eq_ok, List.forall₂_nil_left_iff]
      exact eq_comm
  | cons a rest ih =>
      rw [List.mapM_cons, bind_eq_ok]
      constructor
      · rintro ⟨b, hb, h⟩
        obtain ⟨bs, hbs, h⟩ := bind_eq_ok.mp h
        obtain rfl := pure_eq_ok.mp h
        exact .cons hb (ih.mp hbs)
      · rintro (_ | ⟨hb, hbs⟩)
        exact ⟨_, hb, bind_eq_ok.mpr ⟨_, ih.mpr hbs, rfl⟩⟩

/-- Then there is a result for each element. -/
theorem exists_of_mem_mapM {f : α → Except ε β} {list : List α} {results : List β}
    (h : list.mapM f = .ok results) {a : α} (mem : a ∈ list) : ∃ b, f a = .ok b := by
  have each := mapM_eq_ok.mp h
  clear h
  induction each with
  | nil => cases mem
  | cons first _ ih =>
      rcases List.mem_cons.mp mem with rfl | mem
      · exact ⟨_, first⟩
      · exact ih mem

/-- And each result is that of an element. -/
theorem exists_of_mem_results {f : α → Except ε β} {list : List α} {results : List β}
    (h : list.mapM f = .ok results) {b : β} (mem : b ∈ results) : ∃ a ∈ list, f a = .ok b := by
  have each := mapM_eq_ok.mp h
  clear h
  induction each with
  | nil => cases mem
  | cons first _ ih =>
      rcases List.mem_cons.mp mem with rfl | mem
      · exact ⟨_, List.mem_cons_self, first⟩
      · obtain ⟨a, found, eq⟩ := ih mem
        exact ⟨a, List.mem_cons_of_mem _ found, eq⟩

/-- Steps that come out alike for each element of a list come out alike for the list. -/
theorem mapM_congr {f g : α → Except ε β} {list : List α} (h : ∀ a ∈ list, f a = g a) :
    list.mapM f = list.mapM g := by
  induction list with
  | nil => rfl
  | cons a rest ih =>
      obtain ⟨first, others⟩ := List.forall_mem_cons.mp h
      rw [List.mapM_cons, List.mapM_cons, first, ih others]

/-- Checks of all elements of a list succeed when each of them does. -/
theorem forM_eq_ok {f : α → Except ε PUnit.{1}} {list : List α} :
    list.forM f = .ok ⟨⟩ ↔ ∀ a ∈ list, f a = .ok ⟨⟩ := by
  induction list with
  | nil => simp [pure, Except.pure]
  | cons a rest ih =>
      change (f a >>= fun _ => rest.forM f) = .ok ⟨⟩ ↔ _
      rw [bind_eq_ok, List.forall_mem_cons, ← ih]
      exact ⟨fun ⟨⟨⟩, first, others⟩ => ⟨first, others⟩, fun ⟨first, others⟩ => ⟨⟨⟩, first, others⟩⟩

/-- Two steps for each element of a list make one. -/
theorem forall₂_trans {γ : Type} {r : α → β → Prop} {s : β → γ → Prop} {t : α → γ → Prop}
    (step : ∀ a b c, r a b → s b c → t a c) {first : List α} {second : List β}
    {third : List γ} (h : List.Forall₂ r first second) (g : List.Forall₂ s second third) :
    List.Forall₂ t first third := by
  induction h generalizing third with
  | nil =>
      obtain rfl := List.forall₂_nil_left_iff.mp g
      exact .nil
  | cons head _ ih =>
      obtain ⟨c, rest, hc, hrest, rfl⟩ := List.forall₂_cons_left_iff.mp g
      exact .cons (step _ _ _ head hc) (ih hrest)

end Tariff.Outcome
