import Tariff.Proofs.Pricing.DurationScan

/-!
# Reading the text of a slot length

A slot length is read from a duration that states some minutes, and from no other text.  It is
written in days where it is a whole number of them, and in minutes otherwise.  Both are durations,
and are read as the same length.

## Main statements

* `SlotLength.read_eq_ok`, `SlotLength.read_eq_ok_iff_isDuration` — what is read has the minutes that
  its text states, and some
* `SlotLength.read_text` — slot lengths read back
* `SlotLength.read_duration` — the texts that are read, what is read from them, and the error of
  all others
-/

namespace Tariff.SlotLength

open Text

variable {length : SlotLength} {minutes : ℕ} {input : String} {e : PricingError}

/-- A length is made of some minutes of at most 32 bits. -/
theorem ofMinutes?_eq_some_iff : ofMinutes? minutes = some length ↔ length.minutes = minutes := by
  obtain ⟨m, pos, le⟩ := length
  rw [ofMinutes?]
  constructor
  · intro h
    split at h
    · exact (congrArg SlotLength.minutes (Option.some.inj h)).symm
    · cases h
  · rintro rfl
    exact dif_pos ⟨pos, le⟩

/-- **What is read** has the minutes that its text states.  A text that states none, or more than 32
bits have room for, is refused. -/
theorem read_eq_ok : read input = .ok length ↔
    ∃ rest, trim input.toList = 'P' :: rest ∧ readMinutes? rest = some length.minutes := by
  have chars : read input = .ok length ↔ readChars? input.toList = some length := by
    rw [read]
    cases readChars? input.toList <;> simp
  rw [chars, readChars?]
  split
  · next rest start =>
      rw [start, Option.bind_eq_some_iff]
      simp only [ofMinutes?_eq_some_iff, List.cons.injEq, true_and]
      constructor
      · rintro ⟨minutes, stated, rfl⟩
        exact ⟨rest, rfl, stated⟩
      · rintro ⟨_, rfl, stated⟩
        exact ⟨length.minutes, stated, rfl⟩
  · next other =>
      simp only [false_iff, reduceCtorEq, not_exists, not_and]
      exact fun rest start => absurd start (other rest)

/-- **Slot lengths are read from durations**, and have the minutes that these state. -/
theorem read_eq_ok_iff_isDuration :
    read input = .ok length ↔ IsDuration (trim input.toList) length.minutes := by
  rw [read_eq_ok]
  constructor
  · rintro ⟨rest, start, stated⟩
    rw [start]
    exact readMinutes?_eq_some_iff.mp stated
  · intro h
    obtain ⟨rest, start⟩ := h.exists_eq_cons
    rw [start] at h
    exact ⟨rest, start, readMinutes?_eq_some_iff.mpr h⟩

/-- Whatever a text is refused for, the error quotes it. -/
theorem read_eq_error_iff : read input = .error e ↔
    (¬ ∃ length, read input = .ok length) ∧
      e = .invalidSeries ("unsupported resolution: " ++ input) := by
  rw [read]
  cases readChars? input.toList with
  | none => simp [eq_comm]
  | some length => simp

/-! ## Reading back -/

/-- **The written form** is a duration. -/
theorem isDuration_text (length : SlotLength) : IsDuration length.text.toList length.minutes := by
  rw [text]
  split
  · next whole =>
      have days := IsDuration.days (isGroup_digits 'D' (length.minutes / minutesPerDay))
      rw [← minutesPerDay, Nat.mul_div_cancel' (Nat.dvd_of_mod_eq_zero whole)] at days
      simpa using days
  · have minutes := IsDuration.time .missing .missing (isGroup_digits 'M' length.minutes) (by simp)
    simpa using minutes

/-- **Slot lengths read back.** -/
theorem read_text (length : SlotLength) : read length.text = .ok length := by
  have written := length.isDuration_text
  rw [read_eq_ok_iff_isDuration, written.trim_eq]
  exact written

/-! ## The texts that are read -/

/-- **A slot length is read** from the texts that are a duration of 1 to 2³² - 1 minutes once the
blanks around them are taken off, and has exactly the minutes of that duration.  Every other text is
refused, with an error that quotes it.  One pass over the characters, with numbers of 32 bits, reads
the same.  What a length is written as is read as this length. -/
theorem read_duration :
    (∀ input length, read input = .ok length ↔ IsDuration (trim input.toList) length.minutes) ∧
    (∀ input, (∃ length, read input = .ok length) ↔
      ∃ n, IsDuration (trim input.toList) n ∧ 1 ≤ n ∧ n ≤ 2 ^ 32 - 1) ∧
    (∀ input e, read input = .error e ↔
      (¬ ∃ n, IsDuration (trim input.toList) n ∧ 1 ≤ n ∧ n ≤ 2 ^ 32 - 1) ∧
        e = .invalidSeries ("unsupported resolution: " ++ input)) ∧
    (∀ text, scanChars? text = readChars? text) ∧
    ∀ length, read length.text = .ok length := by
  have accepted : ∀ input, (∃ length, read input = .ok length) ↔
      ∃ n, IsDuration (trim input.toList) n ∧ 1 ≤ n ∧ n ≤ 2 ^ 32 - 1 := by
    intro input
    simp only [read_eq_ok_iff_isDuration]
    constructor
    · rintro ⟨⟨n, positive, small⟩, h⟩
      exact ⟨n, h, positive, small⟩
    · rintro ⟨n, h, positive, small⟩
      exact ⟨⟨n, positive, small⟩, h⟩
  have refused : ∀ input e, read input = .error e ↔
      (¬ ∃ n, IsDuration (trim input.toList) n ∧ 1 ≤ n ∧ n ≤ 2 ^ 32 - 1) ∧
        e = .invalidSeries ("unsupported resolution: " ++ input) := by
    intro input e
    rw [read_eq_error_iff, accepted]
  exact ⟨fun _ _ => read_eq_ok_iff_isDuration, accepted, refused, scanChars?_eq, read_text⟩

end Tariff.SlotLength
