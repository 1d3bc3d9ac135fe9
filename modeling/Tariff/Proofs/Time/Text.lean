import Tariff.Proofs.Decimal.Text
import Tariff.Proofs.Time.Calendar
import Tariff.Time.Notation

/-!
# Reading the text of an instant

An instant is written as date and time in universal time, and what is written is read as
the same instant.

## Main definitions

* `Instant.IsCivil` — instants whose leap second ends a minute

## Main statements

* `Instant.readDate?_chars`, `Instant.readTimeOfDay?_chars` — date and time of day
* `Instant.read?_textUtc_iff` — the civil instants are those that read back

## Design notes

Each reader takes what its writer has written and leaves what stands behind it.  A field of a
fixed width ends by itself; a signed year and a fraction have any number of digits and end at
the next mark.

A leap second is written as the second behind the one that it belongs to.  That reads back only
where it is the sixty-first of its minute.
-/

namespace Tariff

open Text

namespace Instant

variable {tail : List Char} {width n : ℕ}

/-! ## Fields and marks -/

/-- Padded digits begin with a digit. -/
theorem exists_padded_eq_cons (width n : ℕ) :
    ∃ c rest, padded width n = c :: rest ∧ isDigit c = true := by
  have read := readNat?_padded width n
  cases written : padded width n with
  | nil =>
      rw [written] at read
      cases read
  | cons c rest =>
      have mem : c ∈ padded width n := by
        rw [written]
        exact List.mem_cons_self
      exact ⟨c, rest, rfl, isDigit_of_mem_padded mem⟩

theorem trimStart_padded (width n : ℕ) (tail : List Char) :
    trimStart (padded width n ++ tail) = padded width n ++ tail := by
  obtain ⟨c, rest, written, digit⟩ := exists_padded_eq_cons width n
  rw [written, List.cons_append, trimStart_cons (solid_of_isDigit digit).1]

/-- **A field** that is as wide as it may be is read, whatever stands behind it. -/
theorem readField?_padded (pos : 0 < width) (small : n < 10 ^ width) (tail : List Char) :
    readField? width (padded width n ++ tail) = some (n, tail) := by
  have run : ((padded width n ++ tail).takeWhile isDigit).take width = padded width n := by
    rw [List.takeWhile_append_of_pos fun c mem => isDigit_of_mem_padded mem]
    exact List.take_left' (length_padded pos small)
  rw [readField?, trimStart_padded, run, readNat?_padded, Option.map_some, List.drop_left]

/-- **A mark** is read. -/
theorem readMark?_cons {mark : Char} (solid : isBlank mark = false) (tail : List Char) :
    readMark? mark (mark :: tail) = some tail := by
  rw [readMark?, trimStart_cons solid]
  exact if_pos rfl

/-! ## Dates -/

/-- **A year** is read up to the mark behind it. -/
theorem readYear?_yearChars (year : ℤ) (boundary : ∀ c ∈ tail.head?, isDigit c = false) :
    readYear? (LocalTime.yearChars year ++ tail) = some (year, tail) := by
  have inside : ∀ c ∈ padded 4 year.natAbs, isDigit c = true := fun c mem => isDigit_of_mem_padded mem
  rw [LocalTime.yearChars]
  split
  · next plain =>
      obtain ⟨c, rest, written, digit⟩ := exists_padded_eq_cons 4 year.natAbs
      obtain ⟨-, minus, plus⟩ := solid_of_isDigit digit
      have field : readField? 4 (c :: rest ++ tail) = some (year.natAbs, tail) := by
        rw [← written]
        exact readField?_padded (by decide) (by omega) tail
      have unsigned : readYear? (c :: rest ++ tail) = some ((year.natAbs : ℤ), tail) := by
        rw [List.cons_append] at field
        rw [readYear?, ← written, trimStart_padded, written]
        simp [minus, plus, field]
      rw [written, unsigned, Int.natAbs_of_nonneg plain.1]
  · next signed =>
      have run := takeWhile_append_eq inside boundary
      have rest := dropWhile_append_eq inside boundary
      have sign : ∀ c : Char, c = '-' ∨ c = '+' → isBlank c = false := by
        rintro c (rfl | rfl) <;> decide
      split
      · next negative =>
          rw [List.cons_append, readYear?, trimStart_cons (sign _ (.inl rfl))]
          simp [run, rest, readNat?_padded, abs_of_neg negative]
      · next positive =>
          rw [List.cons_append, readYear?, trimStart_cons (sign _ (.inr rfl))]
          simp [run, rest, readNat?_padded, abs_of_nonneg (not_lt.mp positive)]

/-- **A date** is read. -/
theorem readDate?_chars {date : CivilDate} (calendar : date.inCalendar = true) (tail : List Char) :
    readDate? (LocalTime.yearChars date.year ++ '-' :: (padded 2 date.month ++
      '-' :: (padded 2 date.day ++ tail))) = some (date, tail) := by
  have valid := calendar
  simp only [CivilDate.inCalendar, CivilDate.isValid, Bool.and_eq_true, decide_eq_true_eq] at valid
  have length : CivilDate.monthLength date.year date.month ≤ 31 := by
    unfold CivilDate.monthLength
    split
    · split <;> decide
    all_goals decide
  have month : date.month < 10 ^ 2 := by omega
  have day : date.day < 10 ^ 2 := by omega
  rw [readDate?, readYear?_yearChars _ (by simp; decide)]
  simp only [Option.bind_eq_bind, Option.bind_some, readMark?_cons (by decide : isBlank '-' = false),
    readField?_padded (by decide) month, readField?_padded (by decide) day]
  exact if_pos calendar

/-! ## Times of day -/

/-- **A fraction of a second** is read, however many digits it is written with. -/
theorem readFraction?_fractionChars {nano : ℕ} (small : nano < nanosPerSecond)
    (boundary : ∀ c ∈ tail.head?, isDigit c = false ∧ c ≠ '.') :
    readFraction? (LocalTime.fractionChars nano ++ tail) = some (nano, tail) := by
  have digits : ∀ {count part : ℕ}, 0 < count → count ≤ 9 → part < 10 ^ count →
      readFraction? ('.' :: padded count part ++ tail) = some (part * tenTo (9 - count), tail) := by
    intro count part pos few within
    have inside : ∀ c ∈ padded count part, isDigit c = true := fun c mem => isDigit_of_mem_padded mem
    have stop : ∀ c ∈ tail.head?, isDigit c = false := fun c head => (boundary c head).1
    have length := length_padded pos within
    have all : (padded count part).take 9 = padded count part :=
      List.take_of_length_le (length.trans_le few)
    rw [List.cons_append, readFraction?, takeWhile_append_eq inside stop,
      dropWhile_append_eq inside stop, all, readNat?_padded, Option.map_some, length]
  have billion : nanosPerSecond = 1000000000 := rfl
  rw [LocalTime.fractionChars]
  split
  · next zero =>
      rw [List.nil_append, zero]
      cases tail with
      | nil => rfl
      | cons c rest =>
          have point : c ≠ '.' := (boundary c rfl).2
          simp [readFraction?, point]
  · split
    · next thousandths =>
        have places : tenTo (9 - 3) = 1000000 := rfl
        rw [digits (by decide) (by decide) (by omega), places, Nat.div_mul_cancel (by omega)]
    · split
      · next millionths =>
          have places : tenTo (9 - 6) = 1000 := rfl
          rw [digits (by decide) (by decide) (by omega), places, Nat.div_mul_cancel (by omega)]
      · rw [digits (by decide) (by decide) (by omega), Nat.sub_self, tenTo_zero, Nat.mul_one]

/-- The second of a minute and its nanosecond are found again, also in the leap second at the end of
a minute. -/
theorem leapInto_secondOfMinute {time : LocalTime} (nano : time.nano < 2000000000)
    (leap : nanosPerSecond ≤ time.nano → time.second % 60 = 59) :
    leapInto time.secondOfMinute (time.nano % nanosPerSecond) = (time.second % 60, time.nano) := by
  have billion : nanosPerSecond = 1000000000 := rfl
  rw [LocalTime.secondOfMinute, leapInto, billion]
  rw [billion] at leap
  split <;> rw [Prod.mk.injEq] <;> omega

/-- **A time of day** is read. -/
theorem readTimeOfDay?_chars {time : LocalTime} (day : time.second < 86400)
    (nano : time.nano < 2000000000)
    (leap : nanosPerSecond ≤ time.nano → time.second % 60 = 59)
    (boundary : ∀ c ∈ tail.head?, isDigit c = false ∧ c ≠ '.') :
    readTimeOfDay? (padded 2 (time.second / 3600) ++ ':' :: (padded 2 (time.second / 60 % 60) ++
      ':' :: (padded 2 time.secondOfMinute ++
        (LocalTime.fractionChars (time.nano % nanosPerSecond) ++ tail)))) =
      some ((time.second, time.nano), tail) := by
  have billion : nanosPerSecond = 1000000000 := rfl
  have hour : time.second / 3600 < 10 ^ 2 := by omega
  have minute : time.second / 60 % 60 < 10 ^ 2 := by omega
  have second : time.secondOfMinute < 10 ^ 2 := by
    rw [LocalTime.secondOfMinute, billion]
    omega
  have fraction : readFraction? (LocalTime.fractionChars (time.nano % nanosPerSecond) ++ tail) =
      some (time.nano % nanosPerSecond, tail) :=
    readFraction?_fractionChars (Nat.mod_lt _ (by decide)) boundary
  simp only [readTimeOfDay?, Option.bind_eq_bind, Option.bind_some,
    readMark?_cons (by decide : isBlank ':' = false), readField?_padded (by decide) hour,
    readField?_padded (by decide) minute, readField?_padded (by decide) second, fraction]
  have bounds : time.second / 3600 ≤ 23 ∧ time.second / 60 % 60 ≤ 59 ∧ time.secondOfMinute ≤ 60 := by
    rw [LocalTime.secondOfMinute, billion]
    omega
  have whole : time.second / 3600 * 3600 + time.second / 60 % 60 * 60 + time.second % 60 =
      time.second := by omega
  rw [if_pos bounds, leapInto_secondOfMinute nano leap]
  dsimp only
  rw [whole]

/-! ## Instants -/

/-- **Civil instants.**  A leap second stands behind the last second of a minute. -/
def IsCivil (t : Instant) : Prop :=
  t.isLeap = true → t.second % 60 = 59

instance (t : Instant) : Decidable t.IsCivil :=
  inferInstanceAs (Decidable (t.isLeap = true → t.second % 60 = 59))

/-- What a clock shows is shown at that instant. -/
theorem toInstant?_ofInstant (t : Instant) :
    (LocalTime.ofInstant t 0).date.inCalendar = true ∧
      (LocalTime.ofInstant t 0).second < 86400 ∧
        (LocalTime.ofInstant t 0).toInstant? 0 = some t := by
  have lower := t.second_ge
  have upper := t.second_le
  have length : secondsPerDay = 86400 := rfl
  have calendar : (LocalTime.ofInstant t 0).date.inCalendar = true := by
    refine CivilDate.inCalendar_ofDays ?_ ?_ <;> rw [length] <;> omega
  refine ⟨calendar, ?_, ?_⟩
  · rw [LocalTime.ofInstant, length]
    dsimp only
    omega
  · rw [LocalTime.toInstant?, if_pos calendar, ofParts?_eq_some_iff]
    refine ⟨?_, rfl⟩
    rw [LocalTime.ofInstant, CivilDate.toDays_ofDays, length]
    dsimp only
    omega

/-- **A civil instant reads back.** -/
theorem read?_textUtc {t : Instant} (civil : t.IsCivil) : read? t.textUtc = some t := by
  obtain ⟨calendar, day, back⟩ := toInstant?_ofInstant t
  have leap : nanosPerSecond ≤ (LocalTime.ofInstant t 0).nano →
      (LocalTime.ofInstant t 0).second % 60 = 59 := by
    intro leap
    have last := civil (decide_eq_true leap)
    have length : secondsPerDay = 86400 := rfl
    rw [LocalTime.ofInstant, length]
    dsimp only
    omega
  have nano : (LocalTime.ofInstant t 0).nano < 2000000000 := t.nano_lt
  have zulu : readOffset? (trimStart ['Z']) = some (0, []) := by decide
  rw [read?, textUtc, String.toList_ofList, LocalTime.chars]
  generalize LocalTime.ofInstant t 0 = time at *
  simp only [List.append_assoc, List.cons_append, readChars?, readDate?_chars calendar,
    Option.bind_eq_bind, Option.bind_some, readBetween?, true_or, if_true]
  rw [readTimeOfDay?_chars day nano leap (by simp; decide)]
  simp only [Option.bind_some, zulu]
  exact back

/-! ## What can be read -/

variable {text rest : List Char} {second nano : ℕ} {offset : ℤ} {t : Instant}

/-- A fraction that is read is less than a second. -/
theorem lt_of_readFraction? (h : readFraction? text = some (nano, rest)) : nano < nanosPerSecond := by
  unfold readFraction? at h
  split at h
  · next digits =>
      obtain ⟨n, read, eq⟩ := Option.map_eq_some_iff.mp h
      obtain ⟨rfl, -⟩ := Prod.mk.inj eq
      generalize shown : (digits.takeWhile isDigit).take 9 = run at *
      have short : run.length ≤ 9 := by
        rw [← shown]
        exact List.length_take_le ..
      rw [readNat?] at read
      split at read
      · cases read
      · next valid =>
          rw [Bool.or_eq_true, not_or, Bool.not_eq_true', Bool.not_eq_false] at valid
          obtain rfl := Option.some.inj read
          have bound := ofDigitChars_lt (List.all_eq_true.mp valid.2) 0
          rw [Nat.zero_add, Nat.one_mul] at bound
          calc digitsValue run * tenTo (9 - run.length)
              < tenTo run.length * tenTo (9 - run.length) :=
                Nat.mul_lt_mul_of_pos_right bound (tenTo_pos _)
            _ = nanosPerSecond := by
              rw [← tenTo_add, Nat.add_sub_cancel' short]
              rfl
  · obtain ⟨rfl, -⟩ := Prod.mk.inj (Option.some.inj h)
    decide

/-- A leap second that is read stands at the end of a minute. -/
theorem leap_of_readTimeOfDay? (h : readTimeOfDay? text = some ((second, nano), rest))
    (leap : nanosPerSecond ≤ nano) : second % 60 = 59 := by
  simp only [readTimeOfDay?, Option.bind_eq_bind, Option.bind_eq_some_iff] at h
  obtain ⟨⟨hour, _⟩, -, _, -, ⟨minute, _⟩, -, _, -, ⟨shown, _⟩, -, ⟨fraction, _⟩, read, h⟩ := h
  have small := lt_of_readFraction? read
  split at h
  · rw [leapInto] at h
    split at h <;> simp only [Option.some.injEq, Prod.mk.injEq] at h <;> omega
  · cases h

/-- Offsets are whole minutes. -/
theorem minutes_of_readOffsetDigits? (h : readOffsetDigits? text = some (offset, rest)) :
    offset % 60 = 0 := by
  simp only [readOffsetDigits?, Option.bind_eq_bind, Option.bind_eq_some_iff] at h
  obtain ⟨hours, -, minutes, -, h⟩ := h
  split at h
  · simp only [Option.some.injEq, Prod.mk.injEq] at h
    omega
  · cases h

theorem minutes_of_readOffset? (h : readOffset? text = some (offset, rest)) : offset % 60 = 0 := by
  unfold readOffset? at h
  split at h
  · cases h
  split at h
  · obtain ⟨rfl, -⟩ := Prod.mk.inj (Option.some.inj h)
    rfl
  split at h
  · obtain ⟨rfl, -⟩ := Prod.mk.inj (Option.some.inj h)
    rfl
  split at h
  · exact minutes_of_readOffsetDigits? h
  split at h
  · obtain ⟨⟨n, _⟩, read, eq⟩ := Option.map_eq_some_iff.mp h
    obtain ⟨rfl, -⟩ := Prod.mk.inj eq
    have whole := minutes_of_readOffsetDigits? read
    omega
  · cases h

/-- **Whatever is read is civil.** -/
theorem isCivil_of_read? {input : String} (h : read? input = some t) : t.IsCivil := by
  simp only [read?, readChars?, Option.bind_eq_bind, Option.bind_eq_some_iff] at h
  obtain ⟨⟨date, _⟩, -, _, -, ⟨⟨second, nano⟩, _⟩, time, ⟨offset, _⟩, zone, h⟩ := h
  intro leap
  split at h
  · rw [LocalTime.toInstant?] at h
    split at h
    · obtain ⟨seconds, nanos⟩ := ofParts?_eq_some_iff.mp h
      have length : secondsPerDay = 86400 := rfl
      have behind : nanosPerSecond ≤ t.nano := of_decide_eq_true leap
      rw [nanos] at behind
      have last := leap_of_readTimeOfDay? time behind
      have whole := minutes_of_readOffset? zone
      rw [seconds, length]
      dsimp only
      omega
    · cases h
  · cases h

/-- **Civil instants** are those that read back. -/
theorem read?_textUtc_iff : read? t.textUtc = some t ↔ t.IsCivil :=
  ⟨isCivil_of_read?, read?_textUtc⟩

end Instant

end Tariff
