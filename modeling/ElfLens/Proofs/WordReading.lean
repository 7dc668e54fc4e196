import ElfLens.Maps.Record
import Mathlib.Data.List.TakeDrop
import Mathlib.Data.List.TakeWhile

set_option autoImplicit false

namespace ElfLens.Text

/-- A text of nothing but blanks. -/
def IsGap (text : List Char) : Prop := ∀ c ∈ text, isBlank c = true

instance (text : List Char) : Decidable (IsGap text) :=
  decidable_of_iff (text.all isBlank) List.all_eq_true

instance (text : List Char) : Decidable (IsWord text) :=
  decidable_of_iff (text ≠ [] ∧ text.all fun c => !isBlank c) (by simp [IsWord])

/-- A text that no word runs on into. -/
def EndsWord (text : List Char) : Prop := ∀ c ∈ text.head?, isBlank c = true

theorem endsWord_append {gap text : List Char} (blank : IsGap gap) (apart : gap ≠ [] ∨ text = []) :
    EndsWord (gap ++ text) := by
  cases gap with
  | nil =>
      obtain rfl : text = [] := apart.resolve_left fun filled => filled rfl
      intro c first
      cases first
  | cons c more =>
      intro first same
      cases same
      exact blank c (List.mem_cons_self ..)

theorem trimStart_append_of_gap {gap : List Char} (blank : IsGap gap) (text : List Char) :
    trimStart (gap ++ text) = trimStart text :=
  List.dropWhile_append_of_pos blank

theorem trimStart_eq_nil_iff {text : List Char} : trimStart text = [] ↔ IsGap text :=
  List.dropWhile_eq_nil_iff

theorem trimStart_eq_self {text : List Char} (solid : ∀ c ∈ text.head?, isBlank c = false) :
    trimStart text = text := by
  cases text with
  | nil => rfl
  | cons c rest => exact List.dropWhile_cons_of_neg (by simp [solid c rfl])

theorem trimStart_append_of_ne_nil {text : List Char} (filled : trimStart text ≠ [])
    (more : List Char) : trimStart (text ++ more) = trimStart text ++ more := by
  rw [trimStart, List.dropWhile_append, if_neg (by simpa [trimStart] using filled)]
  rfl

/-- The first word of a text is what stands up to the next blank behind the blanks in front. -/
theorem nextWord?_eq_some_iff {text word rest : List Char} :
    nextWord? text = some (word, rest) ↔
      IsWord word ∧ EndsWord rest ∧ trimStart text = word ++ rest := by
  unfold nextWord?
  cases shape : trimStart text with
  | nil =>
      simp only [reduceCtorEq, false_iff]
      rintro ⟨⟨filled, -⟩, -, parts⟩
      exact filled (List.append_eq_nil_iff.mp parts.symm).1
  | cons c more =>
      have solid := not_isBlank_head_trimStart shape
      simp only [List.span_eq_takeWhile_dropWhile, Option.some.injEq, Prod.mk.injEq]
      constructor
      · rintro ⟨rfl, rfl⟩
        refine ⟨⟨by simp [solid], ?_⟩, ?_, (List.takeWhile_append_dropWhile ..).symm⟩
        · intro d listed
          simpa using List.mem_takeWhile_imp listed
        · intro d first
          have stops := List.head?_dropWhile_not (fun c => ! isBlank c) (c :: more)
          rw [Option.mem_def.mp first] at stops
          simpa using stops
      · rintro ⟨⟨-, solids⟩, ends, parts⟩
        have kept : ∀ d ∈ word, (! isBlank d) = true := fun d listed => by simp [solids d listed]
        rw [parts, List.takeWhile_append_of_pos kept, List.dropWhile_append_of_pos kept]
        cases rest with
        | nil => simp
        | cons d rest => simp [ends d rfl]

theorem nextWord?_append {word rest : List Char} (whole : IsWord word) (ends : EndsWord rest) :
    nextWord? (word ++ rest) = some (word, rest) := by
  apply nextWord?_eq_some_iff.mpr
  refine ⟨whole, ends, ?_⟩
  apply trimStart_eq_self
  obtain ⟨filled, solids⟩ := whole
  cases word with
  | nil => exact absurd rfl filled
  | cons c word =>
      intro first same
      cases same
      exact solids c (List.mem_cons_self ..)

theorem nextWord?_append_of_gap {gap : List Char} (blank : IsGap gap) (text : List Char) :
    nextWord? (gap ++ text) = nextWord? text := by
  rw [nextWord?, trimStart_append_of_gap blank, nextWord?]

theorem nextWord?_eq_none_iff {text : List Char} : nextWord? text = none ↔ IsGap text := by
  rw [← trimStart_eq_nil_iff, nextWord?]
  cases trimStart text <;> simp

/-- Blanks behind a text stay behind what follows its first word. -/
theorem nextWord?_append_gap {gap : List Char} (blank : IsGap gap) (text : List Char) :
    nextWord? (text ++ gap) = (nextWord? text).map fun (word, rest) => (word, rest ++ gap) := by
  cases found : nextWord? text with
  | none =>
      apply nextWord?_eq_none_iff.mpr
      intro c listed
      exact (List.mem_append.mp listed).elim (nextWord?_eq_none_iff.mp found c) (blank c)
  | some pair =>
      obtain ⟨word, rest⟩ := pair
      obtain ⟨whole, ends, parts⟩ := nextWord?_eq_some_iff.mp found
      have filled : trimStart text ≠ [] := by
        rw [parts]
        exact fun empty => whole.1 (List.append_eq_nil_iff.mp empty).1
      apply nextWord?_eq_some_iff.mpr
      refine ⟨whole, ?_, ?_⟩
      · cases rest with
        | nil => simpa using endsWord_append blank (.inr (rfl : ([] : List Char) = []))
        | cons c rest => exact ends
      · rw [trimStart_append_of_ne_nil filled, parts, List.append_assoc]

theorem trim_append_of_gap {gap : List Char} (blank : IsGap gap) (text : List Char) :
    trim (gap ++ text) = trim text := by
  rw [trim, trimStart_append_of_gap blank, trim]

theorem trim_append_gap {gap : List Char} (blank : IsGap gap) (text : List Char) :
    trim (text ++ gap) = trim text := by
  by_cases empty : trimStart text = []
  · have hollow : trimStart (text ++ gap) = [] := by
      rw [trimStart_append_of_gap (trimStart_eq_nil_iff.mp empty)]
      exact trimStart_eq_nil_iff.mpr blank
    rw [trim, hollow, trim, empty]
  · have reversed : IsGap gap.reverse := fun c listed => blank c (List.mem_reverse.mp listed)
    rw [trim, trimStart_append_of_ne_nil empty, List.reverse_append,
      trimStart_append_of_gap reversed, trim]

/-- No blank is left at either end. -/
theorem trim_trim (text : List Char) : trim (trim text) = trim text := by
  have front : trimStart (trim text) = trim text := by
    apply trimStart_eq_self
    intro c first
    cases shape : trim text with
    | nil =>
        rw [shape] at first
        cases first
    | cons d rest =>
        rw [shape] at first
        cases first
        exact not_isBlank_head_trim shape
  have back : trimStart (trim text).reverse = (trim text).reverse := by
    rw [trim, List.reverse_reverse, trimStart_trimStart]
  rw [trim, front, back, List.reverse_reverse]

theorem toNat_of_digitValue? {base value : Nat} {c : Char}
    (digit : digitValue? base c = some value) :
    (48 ≤ c.toNat ∧ c.toNat ≤ 57) ∨ (97 ≤ c.toNat ∧ c.toNat ≤ 102) ∨
      (65 ≤ c.toNat ∧ c.toNat ≤ 70) := by
  by_cases decimal : '0' ≤ c ∧ c ≤ '9'
  · exact .inl decimal
  · by_cases lower : 'a' ≤ c ∧ c ≤ 'f'
    · exact .inr (.inl lower)
    · by_cases upper : 'A' ≤ c ∧ c ≤ 'F'
      · exact .inr (.inr upper)
      · simp [digitValue?, decimal, lower, upper] at digit

/-- A digit is neither a blank nor a sign. -/
theorem solid_of_digitValue? {base value : Nat} {c : Char}
    (digit : digitValue? base c = some value) : isBlank c = false ∧ c ≠ '-' ∧ c ≠ '+' := by
  have range := toNat_of_digitValue? digit
  refine ⟨?_, ?_, ?_⟩
  · simp only [isBlank, blankRanges, List.any_cons, List.any_nil, Bool.or_false,
      Bool.or_eq_false_iff, decide_eq_false_iff_not]
    omega
  · rintro rfl
    revert range
    decide
  · rintro rfl
    revert range
    decide

theorem exists_digitValue?_of_mem {base start n : Nat} {text : List Char}
    (read : extendDigits? base start text = some n) {c : Char} (listed : c ∈ text) :
    ∃ value, digitValue? base c = some value := by
  induction text generalizing start with
  | nil => cases listed
  | cons d rest ih =>
      obtain ⟨value, first, later⟩ := Option.bind_eq_some_iff.mp read
      rcases List.mem_cons.mp listed with rfl | behind
      · exact ⟨value, first⟩
      · exact ih later behind

/-- The digits of a number behind so many zeros. -/
def paddedDigits (base zeros n : Nat) : List Char :=
  List.replicate zeros '0' ++ Nat.toDigits base n

theorem paddedDigits_zero (base n : Nat) : paddedDigits base 0 n = Nat.toDigits base n := rfl

section Digits

variable (base : Nat) (least : 1 < base) (small : base ≤ 16) (zeros : Nat)
include least small

theorem extendDigits?_paddedDigits (n : Nat) :
    extendDigits? base 0 (paddedDigits base zeros n) = some n := by
  induction zeros with
  | zero =>
      have read := digits?_toDigits least small n
      rwa [digits?] at read
      exact Nat.toDigits_ne_nil
  | succ zeros ih =>
      have zero : digitValue? base '0' = some 0 :=
        digitValue?_digitChar small (Nat.zero_lt_of_lt least)
      rw [paddedDigits, List.replicate_succ, List.cons_append, extendDigits?, zero,
        Option.bind_some, Nat.mul_zero, Nat.add_zero]
      exact ih

theorem solid_of_mem_paddedDigits {n : Nat} {c : Char} (listed : c ∈ paddedDigits base zeros n) :
    isBlank c = false ∧ c ≠ '-' ∧ c ≠ '+' := by
  have read := extendDigits?_paddedDigits base least small zeros n
  obtain ⟨value, digit⟩ := exists_digitValue?_of_mem read listed
  exact solid_of_digitValue? digit

theorem isWord_paddedDigits (n : Nat) : IsWord (paddedDigits base zeros n) := by
  refine ⟨by simp [paddedDigits], ?_⟩
  intro c listed
  exact (solid_of_mem_paddedDigits base least small zeros listed).1

/-- The digits of a word are read as that word, zeros in front of them or not. -/
theorem word?_paddedDigits (word : UInt64) :
    word? base (paddedDigits base zeros word.toNat) = some word := by
  have solid := isWord_paddedDigits base least small zeros word.toNat
  have unsigned : unsigned? base (paddedDigits base zeros word.toNat) = some word.toNat := by
    rw [unsigned?, digits?]
    · exact extendDigits?_paddedDigits base least small zeros word.toNat
    · exact solid.1
    · intro rest shape
      have sign : '+' ∈ paddedDigits base zeros word.toNat := by simp [shape]
      exact (solid_of_mem_paddedDigits base least small zeros sign).2.2 rfl
  rw [word?, unsigned, Option.bind_some, Word.ofNat?_toNat]

end Digits

end ElfLens.Text
