import Tariff.Proofs.Pricing.Duration

/-!
# Durations in one pass

A scan of the groups of a duration, character by character and with numbers of at most 32 bits,
reads the same as the readers that go from group to group with numbers of any size.

## Main definitions

* `Scan.Reads` — what is still to be read, in terms of the grammar

## Main statements

* `SlotLength.areGroups_run_cons` — what a designator says about the text behind it
* `Scan.reads_cons` — one character
* `Scan.reads_iff` — a whole text
* `SlotLength.scanMinutes?_eq` — minutes of at most 32 bits are read in one pass
* `SlotLength.scanChars?_eq` — and so are the lengths of slots
-/

namespace Tariff.SlotLength

open Text

variable {c d : Char} {unit minutes k n : ℕ} {groups : List (Char × ℕ)}
  {run run' text text' : List Char}

/-! ## Numbers of 32 bits -/

theorem inWord?_eq_some_iff : inWord? n = some k ↔ k = n ∧ n ≤ 4294967295 := by
  rw [inWord?]
  split
  · next small => simp [small, eq_comm]
  · next large => simp [large]

/-- **Refusing early refuses nothing else**: with some minutes in its unit, no number is larger than
what it adds. -/
theorem add?_eq_some_iff (positive : 0 < unit) (digits : ∀ c ∈ run, isDigit c = true) :
    add? minutes unit run = some n ↔
      run ≠ [] ∧ n = minutes + digitsValue run * unit ∧ n ≤ 4294967295 := by
  by_cases empty : run = []
  · subst empty
    simp [add?, readNat?]
  · have number : digitsValue run ≤ digitsValue run * unit := Nat.le_mul_of_pos_right _ positive
    simp only [add?, readNat?_run empty digits, Option.bind_some, Option.bind_eq_bind,
      Option.bind_eq_some_iff, inWord?_eq_some_iff]
    constructor
    · rintro ⟨_, ⟨rfl, -⟩, _, ⟨rfl, -⟩, rfl, small⟩
      exact ⟨empty, rfl, small⟩
    · rintro ⟨-, rfl, small⟩
      exact ⟨_, ⟨rfl, by omega⟩, _, ⟨rfl, by omega⟩, rfl, small⟩

/-! ## Groups, character by character -/

theorem areGroups_nil (groups : List (Char × ℕ)) : AreGroups groups [] 0 := by
  induction groups with
  | nil => exact .nil
  | cons first groups ih =>
      obtain ⟨designator, unit⟩ := first
      have missing : AreGroups ((designator, unit) :: groups) ([] ++ []) (0 * unit + 0) :=
        .cons .missing ih
      rwa [Nat.zero_mul] at missing

/-- Digits alone are no group. -/
theorem AreGroups.eq_nil_of_digits (marks : ∀ g ∈ groups, isDigit g.1 = false)
    (h : AreGroups groups run n) (digits : ∀ c ∈ run, isDigit c = true) : run = [] ∧ n = 0 := by
  induction h with
  | nil => exact ⟨rfl, rfl⟩
  | @cons designator unit k n groups group rest first others ih =>
      obtain ⟨mark, marks⟩ := List.forall_mem_cons.mp marks
      obtain ⟨inside, behind⟩ := List.forall_mem_append.mp digits
      cases first with
      | missing =>
          obtain ⟨rfl, rfl⟩ := ih marks behind
          simp
      | stated =>
          have digit := inside designator (by simp)
          rw [mark] at digit
          cases digit

/-- The first character that is no digit parts a text in one way. -/
theorem run_inj (digits : ∀ c ∈ run, isDigit c = true) (digits' : ∀ c ∈ run', isDigit c = true)
    (mark : isDigit c = false) (mark' : isDigit d = false)
    (same : run ++ c :: text = run' ++ d :: text') : run = run' ∧ c = d ∧ text = text' := by
  have behind := congrArg (List.dropWhile isDigit) same
  rw [dropWhile_run mark digits, dropWhile_run mark' digits', List.cons.injEq] at behind
  obtain ⟨rfl, rfl⟩ := behind
  exact ⟨List.append_cancel_right same, rfl, rfl⟩

/-- A group is missing where the digits end in another designator. -/
theorem areGroups_cons_of_ne (marks : ∀ g ∈ (d, unit) :: groups, isDigit g.1 = false)
    (digits : ∀ c ∈ run, isDigit c = true) (mark : isDigit c = false) (other : d ≠ c) :
    AreGroups ((d, unit) :: groups) (run ++ c :: text) n ↔ AreGroups groups (run ++ c :: text) n := by
  rw [areGroups_cons_iff]
  constructor
  · rintro ⟨group, rest, j, k, isGroup, others, parts, rfl⟩
    cases isGroup with
    | missing =>
        rw [List.nil_append] at parts
        rw [parts, Nat.zero_mul, Nat.zero_add]
        exact others
    | stated nonempty digits' =>
        rw [List.append_assoc, List.singleton_append] at parts
        obtain ⟨-, rfl, -⟩ := run_inj digits digits' mark (marks _ List.mem_cons_self) parts
        exact absurd rfl other
  · intro others
    exact ⟨[], run ++ c :: text, 0, n, .missing, others, rfl, by omega⟩

/-- A group is stated where the digits end in its designator, which no group behind it has. -/
theorem areGroups_cons_self (marks : ∀ g ∈ groups, isDigit g.1 = false)
    (new : c ∉ groups.map Prod.fst) (digits : ∀ c ∈ run, isDigit c = true)
    (mark : isDigit c = false) :
    AreGroups ((c, unit) :: groups) (run ++ c :: text) n ↔
      ∃ k, run ≠ [] ∧ AreGroups groups text k ∧ n = digitsValue run * unit + k := by
  rw [areGroups_cons_iff]
  constructor
  · rintro ⟨group, rest, j, k, isGroup, others, parts, rfl⟩
    cases isGroup with
    | missing =>
        rw [List.nil_append] at parts
        rw [← parts] at others
        have later := others.mem_designators (c := c) marks
          (by rw [dropWhile_run mark digits]; rfl)
        exact absurd later new
    | stated nonempty digits' =>
        rw [List.append_assoc, List.singleton_append] at parts
        obtain ⟨rfl, -, rfl⟩ := run_inj digits digits' mark mark parts
        exact ⟨k, nonempty, others, rfl⟩
  · rintro ⟨k, nonempty, others, rfl⟩
    exact ⟨run ++ [c], text, digitsValue run, k, .stated nonempty digits, others, by simp, rfl⟩

/-- **A designator** behind digits ends the group of these digits.  The groups in front of its own
are missing, and those behind it make up the rest. -/
theorem areGroups_run_cons (marks : ∀ g ∈ groups, isDigit g.1 = false)
    (different : (groups.map Prod.fst).Nodup) (digits : ∀ c ∈ run, isDigit c = true)
    (mark : isDigit c = false) :
    AreGroups groups (run ++ c :: text) n ↔
      ∃ unit others k, groups.dropWhile (·.1 != c) = (c, unit) :: others ∧ run ≠ [] ∧
        AreGroups others text k ∧ n = digitsValue run * unit + k := by
  induction groups with
  | nil => simp [areGroups_nil_iff]
  | cons first groups ih =>
      obtain ⟨designator, unit⟩ := first
      have behind := (List.forall_mem_cons.mp marks).2
      rw [List.map_cons, List.nodup_cons] at different
      obtain ⟨new, different⟩ := different
      rw [List.dropWhile_cons]
      by_cases same : designator = c
      · subst same
        rw [if_neg (by simp), areGroups_cons_self behind new digits mark]
        constructor
        · rintro ⟨k, nonempty, others, rfl⟩
          exact ⟨unit, groups, k, rfl, nonempty, others, rfl⟩
        · rintro ⟨_, _, k, same, nonempty, others, rfl⟩
          cases same
          exact ⟨k, nonempty, others, rfl⟩
      · rw [if_pos (by simpa using same), areGroups_cons_of_ne marks digits mark same]
        exact ih behind different

namespace Scan

variable {s s' : Scan}

/-- What every scan keeps: its run consists of digits, its groups can be told apart, and its minutes
have at most 32 bits. -/
structure IsSound (s : Scan) : Prop where
  digits : ∀ c ∈ s.run, isDigit c = true
  marks : ∀ g ∈ s.ahead, isDigit g.1 = false
  units : ∀ g ∈ s.ahead, 0 < g.2
  different : (s.ahead.map Prod.fst).Nodup
  minutes_le : s.minutes ≤ 4294967295

/-- **What a scan has still to read**: the groups that may come, of which it has the first digits. -/
def Reads (s : Scan) (text : List Char) (n : ℕ) : Prop :=
  ∃ k, AreGroups s.ahead (s.run ++ text) k ∧ n = s.minutes + k ∧ n ≤ 4294967295

/-- The end of a text. -/
theorem reads_nil (hs : s.IsSound) : s.Reads [] n ↔ s.end? = some n := by
  rw [Reads, end?, List.append_nil]
  constructor
  · rintro ⟨k, groups, rfl, -⟩
    obtain ⟨empty, rfl⟩ := groups.eq_nil_of_digits hs.marks hs.digits
    rw [if_pos empty, Nat.add_zero]
  · intro h
    split at h
    · next empty =>
        cases h
        rw [empty]
        exact ⟨0, areGroups_nil s.ahead, rfl, hs.minutes_le⟩
    · cases h

/-- A digit goes to the run. -/
theorem step?_digit (digit : isDigit c = true) :
    s.step? c = some { s with run := s.run ++ [c] } := by
  rw [step?, if_pos digit]

/-- A designator ends a group that may come, if its minutes can be added. -/
theorem step?_designator (mark : isDigit c = false) : s.step? c = some s' ↔
    ∃ unit others minutes, s.ahead.dropWhile (·.1 != c) = (c, unit) :: others ∧
      add? s.minutes unit s.run = some minutes ∧ s' = ⟨[], others, minutes⟩ := by
  have first := List.head?_dropWhile_not (·.1 != c) s.ahead
  rw [step?, if_neg (by simp [mark])]
  cases behind : s.ahead.dropWhile (·.1 != c) with
  | nil => simp
  | cons group others =>
      obtain ⟨designator, unit⟩ := group
      rw [behind] at first
      obtain rfl : designator = c := by simpa using first
      simp only [Option.map_eq_some_iff]
      constructor
      · rintro ⟨minutes, added, rfl⟩
        exact ⟨unit, others, minutes, rfl, added, rfl⟩
      · rintro ⟨_, _, minutes, same, added, rfl⟩
        cases same
        exact ⟨minutes, added, rfl⟩

/-- The group that a designator ends has some minutes in its unit. -/
theorem IsSound.unit_pos (hs : s.IsSound) {others : List (Char × ℕ)}
    (behind : s.ahead.dropWhile (·.1 != c) = (c, unit) :: others) : 0 < unit :=
  hs.units (c, unit) ((List.dropWhile_suffix _).subset (behind ▸ List.mem_cons_self))

/-- **Each step is sound.** -/
theorem IsSound.step? (hs : s.IsSound) (h : s.step? c = some s') : s'.IsSound := by
  cases digit : isDigit c with
  | true =>
      rw [step?_digit digit] at h
      cases h
      exact { hs with digits := List.forall_mem_append.mpr ⟨hs.digits, by simp [digit]⟩ }
  | false =>
      obtain ⟨unit, others, minutes, behind, added, rfl⟩ := (step?_designator digit).mp h
      have left : ((c, unit) :: others).Sublist s.ahead :=
        behind ▸ (List.dropWhile_suffix _).sublist
      have later : others.Sublist s.ahead := (List.sublist_cons_self _ _).trans left
      obtain ⟨-, -, small⟩ := (add?_eq_some_iff (hs.unit_pos behind) hs.digits).mp added
      exact
        { digits := by simp
          marks := fun g mem => hs.marks g (later.subset mem)
          units := fun g mem => hs.units g (later.subset mem)
          different := hs.different.sublist (later.map Prod.fst)
          minutes_le := small }

/-- **One character** of what is still to be read. -/
theorem reads_cons (hs : s.IsSound) :
    s.Reads (c :: text) n ↔ ∃ s', s.step? c = some s' ∧ s'.Reads text n := by
  cases digit : isDigit c with
  | true => simp [step?_digit digit, Reads]
  | false =>
      simp only [step?_designator digit, Reads,
        areGroups_run_cons hs.marks hs.different hs.digits digit]
      constructor
      · rintro ⟨_, ⟨unit, others, k, behind, nonempty, groups, rfl⟩, rfl, small⟩
        have added : add? s.minutes unit s.run = some (s.minutes + digitsValue s.run * unit) :=
          (add?_eq_some_iff (hs.unit_pos behind) hs.digits).mpr ⟨nonempty, rfl, by omega⟩
        exact ⟨_, ⟨unit, others, _, behind, added, rfl⟩, k, groups, (Nat.add_assoc ..).symm, small⟩
      · rintro ⟨_, ⟨unit, others, minutes, behind, added, rfl⟩, k, groups, rfl, small⟩
        obtain ⟨nonempty, rfl, -⟩ := (add?_eq_some_iff (hs.unit_pos behind) hs.digits).mp added
        exact ⟨_, ⟨unit, others, k, behind, nonempty, groups, rfl⟩, Nat.add_assoc .., small⟩

/-- **A whole text**: a scan ends with what there was to read, and does not end otherwise. -/
theorem reads_iff (hs : s.IsSound) : s.Reads text n ↔ s.run? text = some n := by
  induction text generalizing s with
  | nil => exact reads_nil hs
  | cons c text ih =>
      rw [reads_cons hs, run?, Option.bind_eq_some_iff]
      constructor
      · rintro ⟨s', step, reads⟩
        exact ⟨s', step, (ih (hs.step? step)).mp reads⟩
      · rintro ⟨s', step, rest⟩
        exact ⟨s', step, (ih (hs.step? step)).mpr rest⟩

end Scan

/-! ## Durations, character by character -/

/-- **The scans of a duration** start with groups that can be told apart. -/
theorem run?_eq_filter (marks : ∀ g ∈ groups, isDigit g.1 = false) (units : ∀ g ∈ groups, 0 < g.2)
    (different : (groups.map Prod.fst).Nodup) (small : minutes ≤ 4294967295) (text : List Char) :
    Scan.run? ⟨[], groups, minutes⟩ text =
      ((readGroups? groups text).map (minutes + ·)).filter (· ≤ 4294967295) := by
  have sound : Scan.IsSound ⟨[], groups, minutes⟩ := ⟨by simp, marks, units, different, small⟩
  ext n
  rw [← Scan.reads_iff sound, Scan.Reads]
  simp only [List.nil_append, ← readGroups?_eq_some_iff marks different, Option.filter_eq_some_iff,
    Option.map_eq_some_iff, decide_eq_true_eq]
  constructor
  · rintro ⟨k, groups, rfl, small⟩
    exact ⟨⟨k, groups, rfl⟩, small⟩
  · rintro ⟨⟨k, groups, rfl⟩, small⟩
    exact ⟨k, groups, rfl, small⟩

/-- **In one pass**, minutes are read if they have at most 32 bits. -/
theorem scanMinutes?_eq (text : List Char) :
    scanMinutes? text = (readMinutes? text).filter (· ≤ 4294967295) := by
  have days (text : List Char) : Scan.run? ⟨[], dayGroups, 0⟩ text =
      (readGroups? dayGroups text).filter (· ≤ 4294967295) := by
    rw [run?_eq_filter (by decide) (by decide) (by decide) (by decide)]
    simp
  have time {whole : ℕ} (small : whole ≤ 4294967295) (text : List Char) :
      Scan.run? ⟨[], timeGroups, whole⟩ text =
        ((readGroups? timeGroups text).map (whole + ·)).filter (· ≤ 4294967295) :=
    run?_eq_filter (by decide) (by decide) (by decide) small text
  rw [scanMinutes?, readMinutes?]
  obtain ⟨front, behind⟩ := cutAt (· == 'T') text
  cases behind with
  | none => exact days front
  | some behind =>
      cases behind with
      | nil => rfl
      | cons c rest =>
          dsimp only
          rw [days]
          cases readGroups? dayGroups front with
          | none => rfl
          | some whole =>
              by_cases small : whole ≤ 4294967295
              · simp only [Option.filter_some, decide_eq_true small, if_true, Option.bind_eq_bind,
                  Option.bind_some, time small]
                cases readGroups? timeGroups (c :: rest) <;> rfl
              · have large (part : ℕ) : ¬ whole + part ≤ 4294967295 := by omega
                cases readGroups? timeGroups (c :: rest) <;>
                  simp [Option.filter_some, small, large]

/-- **Lengths are read in one pass** as they are read group by group. -/
theorem scanChars?_eq (text : List Char) : scanChars? text = readChars? text := by
  have refused (o : Option ℕ) : (o.filter (· ≤ 4294967295)).bind ofMinutes? = o.bind ofMinutes? := by
    cases o with
    | none => rfl
    | some minutes =>
        by_cases small : minutes ≤ 4294967295
        · simp [Option.filter_some, small]
        · simp [Option.filter_some, small, ofMinutes?]
  rw [scanChars?, readChars?]
  cases trim text with
  | nil => rfl
  | cons c rest =>
      by_cases start : c = 'P'
      · subst start
        show (scanMinutes? rest).bind ofMinutes? = (readMinutes? rest).bind ofMinutes?
        rw [scanMinutes?_eq, refused]
      · simp [start]

end Tariff.SlotLength
