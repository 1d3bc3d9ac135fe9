import Tariff.Time.Instant

/-!
# The order of instants and counts of nanoseconds

## Main statements

* `Instant.before_iff`, `Instant.upTo_iff` — the order of instants by their parts
* `Instant.eq_of_nanos_eq` — outside leap seconds an instant is its count
* `Instant.nanos_plusMinutes?` — moving by minutes adds to the count

## Design notes

The order of instants is total, also with leap seconds in it.  What is said with
`before` and `upTo` therefore needs no condition; only what is said with counts
asks for instants outside leap seconds.
-/

namespace Tariff.Instant

variable {t u : Instant}

theorem before_iff :
    t.before u = true ↔ t.second < u.second ∨ t.second = u.second ∧ t.nano < u.nano := by
  simp only [before, Bool.or_eq_true, Bool.and_eq_true, decide_eq_true_eq, beq_iff_eq]

theorem upTo_iff :
    t.upTo u = true ↔ t.second < u.second ∨ t.second = u.second ∧ t.nano ≤ u.nano := by
  rw [upTo, Bool.not_eq_true', ← Bool.not_eq_true, before_iff]
  omega

theorem isLeap_eq_false_iff : t.isLeap = false ↔ t.nano < 1000000000 := by
  rw [isLeap, decide_eq_false_iff_not, nanosPerSecond, Nat.not_le]

/-- Outside leap seconds an instant is its count of nanoseconds. -/
theorem eq_of_nanos_eq (ht : t.isLeap = false) (hu : u.isLeap = false)
    (eq : t.nanos = u.nanos) : t = u := by
  rw [isLeap_eq_false_iff] at ht hu
  unfold nanos nanosPerSecond at eq
  -- a fraction of less than a second leaves the seconds of the count alone
  have second : t.second = u.second := by omega
  have nano : t.nano = u.nano := by omega
  obtain ⟨_, _, _, _, _⟩ := t
  obtain ⟨_, _, _, _, _⟩ := u
  simp_all

/-- A leap second adds at most a second to the time between two instants. -/
theorem nanosUntil_le (t u : Instant) : t.nanosUntil u ≤ u.nanos - t.nanos + nanosPerSecond := by
  rw [nanosUntil]
  split
  · exact Int.le_refl _
  · split <;> omega

/-- **Moving by minutes** adds to the count of nanoseconds. -/
theorem nanos_plusMinutes? {minutes : Nat} (ht : t.isLeap = false)
    (h : t.plusMinutes? minutes = some u) :
    u.isLeap = false ∧ u.nanos = t.nanos + (minutes * nanosPerMinute : Nat) := by
  unfold plusMinutes? at h
  split at h
  · next none =>
      obtain rfl := Option.some.inj h
      rw [none, Nat.zero_mul]
      exact ⟨ht, (Int.add_zero _).symm⟩
  · obtain ⟨second, nano⟩ := ofParts?_eq_some_iff.mp h
    rw [isLeap_eq_false_iff] at *
    unfold nanos nanosPerMinute
    unfold nanosPerSecond at *
    omega

end Tariff.Instant
