import Mathlib.Data.List.TakeWhile
import Tariff.Pricing.SlotLength
import Tariff.Proofs.Text.Reading

/-!
# The grammar of durations

A duration is a `P`, days, and behind a `T` hours and minutes.  Each of the three is a number and
its designator, and each may be missing, but a `T` stands only in front of something.  The
minutes that a text states are read exactly from the texts of this form.

## Main definitions

* `SlotLength.IsGroup` — a number and its designator, or nothing
* `SlotLength.AreGroups` — groups with the given designators, one behind the other
* `SlotLength.IsDuration` — a duration, with the minutes that it states

## Main statements

* `SlotLength.readGroups?_eq_some_iff` — groups are read exactly from texts that consist of them
* `SlotLength.readMinutes?_eq_some_iff` — minutes are read exactly from durations
-/

namespace Tariff.SlotLength

open Text

variable {c designator : Char} {unit k n : ℕ} {groups : List (Char × ℕ)}
  {run group text rest : List Char}

/-- **A group** of a duration, and its number: a number and its designator, or nothing for zero. -/
inductive IsGroup (designator : Char) : List Char → ℕ → Prop
  | missing : IsGroup designator [] 0
  | stated {run : List Char} (nonempty : run ≠ []) (digits : ∀ c ∈ run, isDigit c = true) :
      IsGroup designator (run ++ [designator]) (digitsValue run)

/-- **Groups** with the given designators, in their order, and the sum of their numbers in the
given units. -/
inductive AreGroups : List (Char × ℕ) → List Char → ℕ → Prop
  | nil : AreGroups [] [] 0
  | cons {designator : Char} {unit k n : ℕ} {groups : List (Char × ℕ)} {group rest : List Char}
      (first : IsGroup designator group k) (others : AreGroups groups rest n) :
      AreGroups ((designator, unit) :: groups) (group ++ rest) (k * unit + n)

/-- **A duration** of days, hours and minutes, and its minutes in all.  If it has a `T` it has hours
or minutes. -/
inductive IsDuration : List Char → ℕ → Prop
  | days {days : List Char} {d : ℕ} (hd : IsGroup 'D' days d) : IsDuration ('P' :: days) (1440 * d)
  | time {days hours minutes : List Char} {d h m : ℕ} (hd : IsGroup 'D' days d)
      (hh : IsGroup 'H' hours h) (hm : IsGroup 'M' minutes m) (nonempty : hours ++ minutes ≠ []) :
      IsDuration ('P' :: (days ++ 'T' :: (hours ++ minutes))) (1440 * d + 60 * h + m)

/-! ## One group -/

theorem IsGroup.isDigit_or_eq (h : IsGroup designator group k) (mem : c ∈ group) :
    isDigit c = true ∨ c = designator := by
  cases h with
  | missing => cases mem
  | stated nonempty digits =>
      rcases List.mem_append.mp mem with digit | last
      · exact .inl (digits c digit)
      · exact .inr (List.mem_singleton.mp last)

/-- The group of a number is its digits and the designator. -/
theorem isGroup_digits (designator : Char) (n : ℕ) :
    IsGroup designator (digits n ++ [designator]) n := by
  have value : digitsValue (digits n) = n := Nat.ofDigitChars_toDigits (by decide) (by decide)
  have stated : IsGroup designator (digits n ++ [designator]) (digitsValue (digits n)) :=
    .stated (digits_ne_nil n) fun c => isDigit_of_mem_digits
  rwa [value] at stated

theorem readNat?_run (nonempty : run ≠ []) (digits : ∀ c ∈ run, isDigit c = true) :
    readNat? run = some (digitsValue run) := by
  have all : run.all isDigit = true := List.all_eq_true.mpr digits
  rw [readNat?, if_neg (by simp [nonempty, all])]

/-- A run of digits ends where a mark stands. -/
theorem dropWhile_run (mark : isDigit designator = false) (digits : ∀ c ∈ run, isDigit c = true)
    (rest : List Char) : (run ++ designator :: rest).dropWhile isDigit = designator :: rest :=
  dropWhile_append_eq digits fun _ head => Option.some.inj head ▸ mark

/-- **A stated group** is read up to its designator. -/
theorem readGroup?_stated (mark : isDigit designator = false) (nonempty : run ≠ [])
    (digits : ∀ c ∈ run, isDigit c = true) (unit : ℕ) (rest : List Char) :
    readGroup? designator unit (run ++ designator :: rest) =
      some (digitsValue run * unit, rest) := by
  have taken : (run ++ designator :: rest).takeWhile isDigit = run :=
    takeWhile_append_eq digits fun _ head => Option.some.inj head ▸ mark
  rw [readGroup?, dropWhile_run mark digits]
  dsimp only
  rw [if_pos rfl, taken, readNat?_run nonempty digits, Option.map_some]

/-- **A missing group** is read off the designator behind the digits, which is another one. -/
theorem readGroup?_missing (other : designator ∉ (text.dropWhile isDigit).head?) (unit : ℕ) :
    readGroup? designator unit text = some (0, text) := by
  rw [readGroup?]
  split
  · rfl
  · next c rest behind =>
      rw [behind] at other
      exact if_neg fun same => other (congrArg some same)

/-- What is read as a group is one. -/
theorem isGroup_of_readGroup? (read : readGroup? designator unit text = some (n, rest)) :
    ∃ group k, IsGroup designator group k ∧ text = group ++ rest ∧ n = k * unit := by
  have missing (h : some (0, text) = some (n, rest)) :
      ∃ group k, IsGroup designator group k ∧ text = group ++ rest ∧ n = k * unit := by
    cases h
    exact ⟨[], 0, .missing, rfl, (Nat.zero_mul unit).symm⟩
  have digits : ∀ c ∈ text.takeWhile isDigit, isDigit c = true := fun c mem =>
    List.mem_takeWhile_imp mem
  rw [readGroup?] at read
  split at read
  · exact missing read
  · next c behind split =>
      split at read
      · next same =>
          obtain ⟨k, number, parts⟩ := Option.map_eq_some_iff.mp read
          cases parts
          have nonempty : text.takeWhile isDigit ≠ [] := by
            intro empty
            rw [empty] at number
            cases number
          rw [readNat?_run nonempty digits] at number
          cases number
          refine ⟨text.takeWhile isDigit ++ [designator], _, .stated nonempty digits, ?_, rfl⟩
          rw [List.append_assoc, List.singleton_append, ← same, ← split,
            List.takeWhile_append_dropWhile]
      · exact missing read

/-! ## Several groups -/

theorem areGroups_nil_iff : AreGroups [] text n ↔ text = [] ∧ n = 0 := by
  constructor
  · rintro ⟨⟩
    exact ⟨rfl, rfl⟩
  · rintro ⟨rfl, rfl⟩
    exact .nil

theorem areGroups_cons_iff : AreGroups ((designator, unit) :: groups) text n ↔
    ∃ group rest k m, IsGroup designator group k ∧ AreGroups groups rest m ∧
      text = group ++ rest ∧ n = k * unit + m := by
  constructor
  · rintro ⟨⟩
    exact ⟨_, _, _, _, ‹_›, ‹_›, rfl, rfl⟩
  · rintro ⟨group, rest, k, m, first, others, rfl, rfl⟩
    exact .cons first others

/-- Behind its leading digits, a text of groups goes on with one of their designators. -/
theorem AreGroups.mem_designators (marks : ∀ g ∈ groups, isDigit g.1 = false)
    (h : AreGroups groups text n) (head : c ∈ (text.dropWhile isDigit).head?) :
    c ∈ groups.map Prod.fst := by
  induction h with
  | nil => cases head
  | @cons designator unit k n groups group rest first others ih =>
      obtain ⟨mark, marks⟩ := List.forall_mem_cons.mp marks
      rw [List.map_cons, List.mem_cons]
      cases first with
      | missing => exact .inr (ih marks head)
      | stated nonempty digits =>
          rw [List.append_assoc, List.singleton_append, dropWhile_run mark digits] at head
          exact .inl (Option.some.inj head).symm

/-- **Groups are read** exactly from the texts that consist of them.  With different designators,
none of them a digit, the text leaves no choice which groups are missing. -/
theorem readGroups?_eq_some_iff (marks : ∀ g ∈ groups, isDigit g.1 = false)
    (different : (groups.map Prod.fst).Nodup) :
    readGroups? groups text = some n ↔ AreGroups groups text n := by
  induction groups generalizing text n with
  | nil =>
      rw [areGroups_nil_iff]
      cases text with
      | nil => simp [readGroups?, eq_comm]
      | cons c rest => simp [readGroups?]
  | cons first groups ih =>
      obtain ⟨designator, unit⟩ := first
      obtain ⟨mark, others⟩ := List.forall_mem_cons.mp marks
      rw [List.map_cons, List.nodup_cons] at different
      obtain ⟨new, different⟩ := different
      rw [readGroups?, areGroups_cons_iff]
      constructor
      · intro read
        obtain ⟨⟨minutes, rest⟩, start, read⟩ := Option.bind_eq_some_iff.mp read
        obtain ⟨more, behind, total⟩ := Option.bind_eq_some_iff.mp read
        obtain ⟨group, k, isGroup, parts, rfl⟩ := isGroup_of_readGroup? start
        cases total
        exact ⟨group, rest, k, more, isGroup, (ih others different).mp behind, parts, rfl⟩
      · rintro ⟨group, rest, k, more, isGroup, behind, rfl, rfl⟩
        have read := (ih others different).mpr behind
        have start : readGroup? designator unit (group ++ rest) = some (k * unit, rest) := by
          cases isGroup with
          | missing =>
              rw [List.nil_append, Nat.zero_mul]
              exact readGroup?_missing (fun head => new (behind.mem_designators others head)) _
          | stated nonempty digits =>
              rw [List.append_assoc, List.singleton_append]
              exact readGroup?_stated mark nonempty digits unit rest
        simp [start, read]

/-! ## Durations -/

theorem readGroups?_dayGroups :
    readGroups? dayGroups text = some n ↔ ∃ d, IsGroup 'D' text d ∧ n = 1440 * d := by
  rw [readGroups?_eq_some_iff (by decide) (by decide), dayGroups, areGroups_cons_iff, minutesPerDay]
  constructor
  · rintro ⟨days, rest, d, m, isDays, nothing, rfl, rfl⟩
    obtain ⟨rfl, rfl⟩ := areGroups_nil_iff.mp nothing
    rw [List.append_nil]
    exact ⟨d, isDays, by omega⟩
  · rintro ⟨d, isDays, rfl⟩
    exact ⟨text, [], d, 0, isDays, .nil, (List.append_nil text).symm, by omega⟩

theorem readGroups?_timeGroups :
    readGroups? timeGroups text = some n ↔
      ∃ hours minutes h m, IsGroup 'H' hours h ∧ IsGroup 'M' minutes m ∧
        text = hours ++ minutes ∧ n = 60 * h + m := by
  rw [readGroups?_eq_some_iff (by decide) (by decide), timeGroups, areGroups_cons_iff]
  constructor
  · rintro ⟨hours, rest, h, m, isHours, behind, rfl, rfl⟩
    obtain ⟨minutes, rest, m, k, isMinutes, nothing, rfl, rfl⟩ := areGroups_cons_iff.mp behind
    obtain ⟨rfl, rfl⟩ := areGroups_nil_iff.mp nothing
    rw [List.append_nil]
    exact ⟨hours, minutes, h, m, isHours, isMinutes, rfl, by omega⟩
  · rintro ⟨hours, minutes, h, m, isHours, isMinutes, rfl, rfl⟩
    have behind : AreGroups [('M', 1)] (minutes ++ []) (m * 1 + 0) := .cons isMinutes .nil
    rw [List.append_nil] at behind
    exact ⟨hours, minutes, h, m * 1 + 0, isHours, behind, rfl, by omega⟩

/-- A duration starts with its `P`. -/
theorem IsDuration.exists_eq_cons (h : IsDuration text n) : ∃ rest, text = 'P' :: rest := by
  cases h with
  | days => exact ⟨_, rfl⟩
  | time => exact ⟨_, rfl⟩

/-- A group has blanks in it only if its designator is one. -/
theorem IsGroup.solid (mark : isBlank designator = false) (h : IsGroup designator group k) :
    ∀ c ∈ group, isBlank c = false := by
  intro c mem
  rcases h.isDigit_or_eq mem with digit | rfl
  · exact (solid_of_isDigit digit).1
  · exact mark

/-- **A duration has no blanks** around it. -/
theorem IsDuration.trim_eq (h : IsDuration text n) : trim text = text := by
  have letters : isBlank 'P' = false ∧ isBlank 'T' = false := by decide
  refine trim_of_forall ?_
  cases h with
  | days hd =>
      rw [List.forall_mem_cons]
      exact ⟨letters.1, hd.solid (by decide)⟩
  | time hd hh hm =>
      rw [List.forall_mem_cons, List.forall_mem_append, List.forall_mem_cons,
        List.forall_mem_append]
      exact ⟨letters.1, hd.solid (by decide), letters.2, hh.solid (by decide),
        hm.solid (by decide)⟩

/-- Days have no `T` in them. -/
theorem IsGroup.not_time_of_days (h : IsGroup 'D' group k) : ∀ c ∈ group, (c == 'T') = false := by
  intro c mem
  rcases h.isDigit_or_eq mem with digit | rfl
  · exact of_isDigit (p := fun c => (c == 'T') = false) (by decide) digit
  · decide

/-- **Minutes are read** exactly from durations, and as the minutes that these state. -/
theorem readMinutes?_eq_some_iff : readMinutes? text = some n ↔ IsDuration ('P' :: text) n := by
  constructor
  · intro read
    rw [readMinutes?] at read
    split at read
    · next days cut =>
        obtain ⟨d, hd, rfl⟩ := readGroups?_dayGroups.mp read
        rw [eq_of_cutAt cut]
        exact .days hd
    · cases read
    · next days time nonempty cut =>
        obtain ⟨whole, first, read⟩ := Option.bind_eq_some_iff.mp read
        obtain ⟨part, second, total⟩ := Option.bind_eq_some_iff.mp read
        obtain ⟨d, hd, rfl⟩ := readGroups?_dayGroups.mp first
        obtain ⟨hours, minutes, h, m, hh, hm, rfl, rfl⟩ := readGroups?_timeGroups.mp second
        obtain ⟨c, mark, rfl⟩ := eq_append_of_cutAt cut
        cases eq_of_beq mark
        cases total
        rw [← Nat.add_assoc]
        exact .time hd hh hm nonempty
  · intro h
    cases h with
    | days hd =>
        rw [readMinutes?, cutAt_of_forall hd.not_time_of_days]
        exact readGroups?_dayGroups.mpr ⟨_, hd, rfl⟩
    | @time days hours minutes d h m hd hh hm nonempty =>
        have whole := readGroups?_dayGroups.mpr ⟨d, hd, rfl⟩
        have part := readGroups?_timeGroups.mpr ⟨hours, minutes, h, m, hh, hm, rfl, rfl⟩
        have cut : cutAt (· == 'T') (days ++ 'T' :: (hours ++ minutes)) =
            (days, some (hours ++ minutes)) := cutAt_append hd.not_time_of_days (beq_self_eq_true 'T')
        rw [readMinutes?, cut]
        cases time : hours ++ minutes with
        | nil => exact absurd time nonempty
        | cons c rest =>
            rw [time] at part
            simp [whole, part, Nat.add_assoc]

end Tariff.SlotLength
