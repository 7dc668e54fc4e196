import ElfLens.Json.Grammar
import Mathlib.Data.List.Chain
import Mathlib.Data.List.TakeDrop
import Mathlib.Data.List.TakeWhile

set_option autoImplicit false

namespace ElfLens.Json

theorem span_append {p : Char → Bool} {front back : List Char} (inside : ∀ c ∈ front, p c = true)
    (outside : ∀ c ∈ back.head?, p c = false) : (front ++ back).span p = (front, back) := by
  have stops : back.takeWhile p = [] ∧ back.dropWhile p = back := by
    cases back with
    | nil => exact ⟨rfl, rfl⟩
    | cons c back =>
      have no : p c = false := outside c rfl
      constructor <;> simp [no]
  rw [List.span_eq_takeWhile_dropWhile, List.takeWhile_append_of_pos inside,
    List.dropWhile_append_of_pos inside, stops.1, stops.2, List.append_nil]

theorem takeWhile_append_eq {p : Char → Bool} {front back : List Char}
    (inside : ∀ c ∈ front, p c = true) (outside : ∀ c ∈ back.head?, p c = false) :
    (front ++ back).takeWhile p = front ∧ (front ++ back).dropWhile p = back := by
  have both := span_append inside outside
  rw [List.span_eq_takeWhile_dropWhile] at both
  exact Prod.mk.inj both

/-! ### Numbers -/

theorem isDigits_of_isDigitRun {text : List Char} (run : IsDigitRun text) :
    isDigits text = true := by
  rw [isDigits, Bool.and_eq_true, List.all_eq_true, Bool.not_eq_true', List.isEmpty_eq_false_iff]
  exact run

/-- A digit is none of the other characters that stand in a document for themselves. -/
theorem ne_of_isDigit {c mark : Char} (digit : c.isDigit = true) (other : mark.isDigit = false) :
    c ≠ mark := by
  rintro rfl
  rw [digit] at other
  contradiction

namespace IsWhole

theorem digits {text : List Char} (whole : IsWhole text) : ∀ c ∈ text, c.isDigit = true := by
  cases whole with
  | zero => exact List.forall_mem_singleton.mpr rfl
  | positive first nonzero more => exact List.forall_mem_cons.mpr ⟨first, more⟩

theorem isNatural {text : List Char} (whole : IsWhole text) : isNatural text = true := by
  have all_digits := whole.digits
  cases whole with
  | zero => rfl
  | positive first nonzero more =>
    rw [Json.isNatural]
    · exact isDigits_of_isDigitRun ⟨List.cons_ne_nil _ _, all_digits⟩
    · exact fun same => nonzero (List.cons.inj same).1
    · exact fun tail same => nonzero (List.cons.inj same).1

end IsWhole

namespace IsFraction

theorem chars {text : List Char} (fraction : IsFraction text) :
    ∀ c ∈ text, c = '.' ∨ c.isDigit = true := by
  cases fraction with
  | absent => simp
  | digits run =>
    intro c listed
    exact (List.mem_cons.mp listed).imp_right (run.2 c)

theorem head {text : List Char} (fraction : IsFraction text) : ∀ c ∈ text.head?, c = '.' := by
  cases fraction <;> simp

end IsFraction

namespace IsPower

theorem head {text : List Char} (power : IsPower text) : ∀ c ∈ text.head?, c = 'e' ∨ c = 'E' := by
  cases power with
  | absent => simp
  | unsigned marks run => simpa using marks
  | signed marks signs run => simpa using marks

theorem chars {text : List Char} (power : IsPower text) : ∀ c ∈ text, isNumberChar c = true := by
  have digit {digits : List Char} (run : IsDigitRun digits) :
      ∀ c ∈ digits, isNumberChar c = true := by
    intro c listed
    simp [isNumberChar, run.2 c listed]
  have letters : ∀ c ∈ ['e', 'E'], isNumberChar c = true := List.all_eq_true.mp rfl
  have signs : ∀ c ∈ ['+', '-'], isNumberChar c = true := List.all_eq_true.mp rfl
  cases power with
  | absent => simp
  | unsigned marks run => exact List.forall_mem_cons.mpr ⟨letters _ marks, digit run⟩
  | signed marks sign run =>
    exact List.forall_mem_cons.mpr
      ⟨letters _ marks, List.forall_mem_cons.mpr ⟨signs _ sign, digit run⟩⟩

theorem isExponent {letter : Char} {rest : List Char} (power : IsPower (letter :: rest)) :
    isExponent rest = true := by
  cases power with
  | unsigned marks run =>
    -- the first digit is no sign
    rw [Json.isExponent]
    · exact isDigits_of_isDigitRun run
    · rintro tail rfl
      exact absurd (run.2 '+' List.mem_cons_self) (by decide)
    · rintro tail rfl
      exact absurd (run.2 '-' List.mem_cons_self) (by decide)
  | signed marks signs run =>
    simp only [List.mem_cons, List.not_mem_nil, or_false] at signs
    rcases signs with rfl | rfl <;> exact isDigits_of_isDigitRun run

end IsPower

/-- A number is taken apart at its letter and at its point. -/
theorem isMagnitude_append {whole fraction power : List Char} (first : IsWhole whole)
    (second : IsFraction fraction) (third : IsPower power) :
    isMagnitude (whole ++ fraction ++ power) = true := by
  have no_letter : ∀ c ∈ whole ++ fraction, decide (c ≠ 'e' ∧ c ≠ 'E') = true := by
    intro c listed
    have kind : c = '.' ∨ c.isDigit = true :=
      (List.mem_append.mp listed).elim (fun inside => .inr (first.digits c inside))
        (second.chars c)
    rcases kind with rfl | digit
    · decide
    · exact decide_eq_true ⟨ne_of_isDigit digit (by decide), ne_of_isDigit digit (by decide)⟩
  have letter : ∀ c ∈ power.head?, decide (c ≠ 'e' ∧ c ≠ 'E') = false := by
    intro c leads
    rcases third.head c leads with rfl | rfl <;> decide
  have no_point : ∀ c ∈ whole, decide (c ≠ '.') = true := by
    intro c listed
    exact decide_eq_true (ne_of_isDigit (first.digits c listed) (by decide))
  have point : ∀ c ∈ fraction.head?, decide (c ≠ '.') = false := by
    intro c leads
    rw [second.head c leads]
    decide
  rw [isMagnitude, span_append no_letter letter]
  simp only [span_append no_point point, first.isNatural, Bool.true_and, Bool.and_eq_true]
  constructor
  · cases second with
    | absent => rfl
    | digits run => exact isDigits_of_isDigitRun run
  · cases power with
    | nil => rfl
    | cons letter rest => exact third.isExponent

namespace IsNumeral

/-- A number starts with a sign or a digit, and goes on with characters of numbers. -/
theorem exists_cons {text : List Char} (numeral : IsNumeral text) :
    ∃ first rest, text = first :: rest ∧ (first = '-' ∨ first.isDigit = true) ∧
      ∀ c ∈ rest, isNumberChar c = true := by
  have inside {whole fraction power : List Char} (one : IsWhole whole)
      (two : IsFraction fraction) (three : IsPower power) :
      ∀ c ∈ whole ++ fraction ++ power, isNumberChar c = true := by
    intro c listed
    rcases List.mem_append.mp listed with front | back
    · rcases List.mem_append.mp front with digit | part
      · simp [isNumberChar, one.digits c digit]
      · rcases two.chars c part with rfl | digit
        · decide
        · simp [isNumberChar, digit]
    · exact three.chars c back
  cases numeral with
  | @positive whole fraction power one two three =>
    have all_number := inside one two three
    have digits := one.digits
    cases whole with
    | nil => cases one
    | cons c more =>
      exact ⟨c, more ++ fraction ++ power, rfl, .inr (digits c List.mem_cons_self),
        fun d listed => all_number d (List.mem_cons_of_mem c listed)⟩
  | negative one two three => exact ⟨'-', _, rfl, .inl rfl, inside one two three⟩

theorem isNumber {text : List Char} (numeral : IsNumeral text) : isNumber text = true := by
  cases numeral with
  | @positive whole fraction power one two three =>
    -- the first digit is no sign
    rw [Json.isNumber]
    · exact isMagnitude_append one two three
    · intro tail same
      have digits := one.digits
      cases whole with
      | nil => cases one
      | cons c more =>
        exact ne_of_isDigit (digits c List.mem_cons_self) (by decide) (List.cons.inj same).1
  | negative one two three => exact isMagnitude_append one two three

end IsNumeral

/-! ### Strings -/

theorem stringBody_of_isSpelledBy {piece : Piece} {part text after : List Char}
    {pieces : List Piece} (spelled : piece.IsSpelledBy part)
    (body : stringBody text = some (pieces, after)) :
    stringBody (part ++ text) = some (piece :: pieces, after) := by
  cases spelled with
  | @plain c printable no_quote no_escape =>
    have visible : ¬ c.toNat < 0x20 := by omega
    rw [List.singleton_append, stringBody]
    · simp [visible, body]
    · exact no_quote
    · exact fun _ _ _ _ _ same => absurd same no_escape
    · exact fun _ _ same => absurd same no_escape
  | @letter letter c stands =>
    have no_number : letter ≠ 'u' := by
      rintro rfl
      cases stands
    simp only [List.cons_append, List.nil_append]
    rw [stringBody]
    · simp [stands, body]
    · exact fun _ _ _ _ _ same => absurd same no_number
  | digits value =>
    simp only [List.cons_append, List.nil_append]
    rw [stringBody, value]
    simp [body]

theorem stringBody_of_spellsPieces {pieces : List Piece} {text : List Char}
    (spelled : SpellsPieces pieces text) (after : List Char) :
    stringBody (text ++ '"' :: after) = some (pieces, after) := by
  induction spelled with
  | nil => rfl
  | cons first rest ih =>
    rw [List.append_assoc]
    exact stringBody_of_isSpelledBy first ih

/-! ### Words -/

/-- The word ends only where another character follows it. -/
def Token.isOpenEnded : Token → Bool
  | .null | .bool _ | .number _ => true
  | _ => false

/-- The character may go on with the word in front of it. -/
def goesOn (c : Char) : Bool := c.isAlpha || isNumberChar c

/-- What follows a word does not go on with it. -/
def Token.EndsBefore (token : Token) (after : List Char) : Prop :=
  token.isOpenEnded = true → ∀ c ∈ after.head?, goesOn c = false

theorem token?_of_name {token : Token} {first : Char} {rest after : List Char}
    (named : named? (first :: rest) = some token) (letters : ∀ c ∈ first :: rest, c.isAlpha = true)
    (mark : punctuation? first = none) (ends : ∀ c ∈ after.head?, goesOn c = false) :
    token? first (rest ++ after) = some (token, after) := by
  have no_quote : first ≠ '"' := by
    rintro rfl
    exact absurd (letters '"' List.mem_cons_self) (by decide)
  obtain ⟨first_letter, letters⟩ := List.forall_mem_cons.mp letters
  obtain ⟨taken, left⟩ := takeWhile_append_eq letters fun c leads =>
    (Bool.or_eq_false_iff.mp (ends c leads)).1
  rw [token?, mark]
  simp [no_quote, first_letter, taken, left, named]

theorem isAlpha_of_isDigit {c : Char} (digit : c.isDigit = true) : c.isAlpha = false := by
  have low : c.toNat ≤ 57 := (Char.isDigit_iff_toNat.mp digit).2
  have upper : c.isUpper = false := by
    refine decide_eq_false ?_
    rintro ⟨above, -⟩
    have high : 65 ≤ c.toNat := UInt32.le_iff_toNat_le.mp above
    omega
  have lower : c.isLower = false := by
    refine Bool.and_eq_false_imp.mpr fun above => ?_
    have high : 97 ≤ c.toNat := UInt32.le_iff_toNat_le.mp (of_decide_eq_true above)
    omega
  change (c.isUpper || c.isLower) = false
  rw [upper, lower, Bool.or_false]

/-- Neither a sign nor a digit is a blank, a quote, a letter or a mark. -/
theorem not_other_of_numeral {c : Char} (sort : c = '-' ∨ c.isDigit = true) :
    isSpace c = false ∧ c ≠ '"' ∧ c.isAlpha = false ∧ punctuation? c = none := by
  rcases sort with rfl | digit
  · decide
  · refine ⟨?_, ne_of_isDigit digit (by decide), ?_, ?_⟩
    · refine decide_eq_false ?_
      rintro (rfl | rfl | rfl | rfl) <;> exact absurd digit (by decide)
    · exact isAlpha_of_isDigit digit
    · unfold punctuation?
      split <;> first | rfl | exact absurd digit (by decide)

theorem token?_of_isNumeral {spelling after : List Char} {first : Char} {rest : List Char}
    (numeral : IsNumeral spelling) (same : spelling = first :: rest)
    (ends : ∀ c ∈ after.head?, goesOn c = false) :
    token? first (rest ++ after) = some (.number spelling, after) := by
  obtain ⟨lead, tail, again, sort, inside⟩ := numeral.exists_cons
  obtain ⟨rfl, rfl⟩ := List.cons.inj (again.symm.trans same)
  obtain ⟨-, no_quote, no_letter, no_mark⟩ := not_other_of_numeral sort
  obtain ⟨taken, left⟩ := takeWhile_append_eq inside fun c leads =>
    (Bool.or_eq_false_iff.mp (ends c leads)).2
  have number : isNumber (lead :: tail) = true := again ▸ numeral.isNumber
  rw [token?, no_mark]
  simp [no_quote, no_letter, taken, left, number, again]

namespace Token.IsSpelledBy

/-- A word starts with a visible character, by which an open-ended word in front of it may end. -/
theorem exists_cons {token : Token} {word : List Char} (spelled : token.IsSpelledBy word) :
    ∃ first rest, word = first :: rest ∧ isSpace first = false ∧
      (token.isOpenEnded = false → goesOn first = false) := by
  cases spelled with
  | number numeral =>
    obtain ⟨first, rest, same, sort, -⟩ := numeral.exists_cons
    exact ⟨first, rest, same, (not_other_of_numeral sort).1, nofun⟩
  | string inside => exact ⟨'"', _, rfl, rfl, fun _ => rfl⟩
  | null | yes | no => exact ⟨_, _, rfl, rfl, nofun⟩
  | openBracket | closeBracket | openBrace | closeBrace | comma | colon =>
    exact ⟨_, _, rfl, rfl, fun _ => rfl⟩

end Token.IsSpelledBy

/-- The first word of a text is the one that is spelled there. -/
theorem token?_of_isSpelledBy {token : Token} {first : Char} {rest after : List Char}
    (spelled : token.IsSpelledBy (first :: rest)) (ends : token.EndsBefore after) :
    token? first (rest ++ after) = some (token, after) := by
  generalize same : first :: rest = word at spelled
  cases spelled with
  | number numeral => exact token?_of_isNumeral numeral same.symm (ends rfl)
  | @string pieces text inside =>
    have body := stringBody_of_spellsPieces inside after
    rw [List.cons_append, List.cons.injEq] at same
    rw [same.1, same.2, List.append_assoc, List.singleton_append, token?]
    simp [punctuation?, body]
  | null | yes | no =>
    obtain ⟨rfl, rfl⟩ := List.cons.inj same
    exact token?_of_name rfl (List.all_eq_true.mp rfl) rfl (ends rfl)
  | openBracket | closeBracket | openBrace | closeBrace | comma | colon =>
    obtain ⟨rfl, rfl⟩ := List.cons.inj same
    rfl

/-! ### Texts -/

theorem tokens?_cons {c : Char} {rest after : List Char} {token : Token}
    (visible : isSpace c = false) (found : token? c rest = some (token, after)) :
    tokens? (c :: rest) = (tokens? after).map (token :: ·) := by
  rw [tokens?]
  simp only [visible, Bool.false_eq_true, ↓reduceIte]
  split
  · simp_all
  · simp_all

theorem tokens?_blanks {blanks : List Char} (all_space : ∀ c ∈ blanks, isSpace c = true)
    (text : List Char) : tokens? (blanks ++ text) = tokens? text := by
  induction blanks with
  | nil => rfl
  | cons c blanks ih =>
    obtain ⟨space, all_space⟩ := List.forall_mem_cons.mp all_space
    rw [List.cons_append, tokens?, if_pos space, ih all_space]

/-- No two neighbours need blanks to be told apart. -/
def Parted (tokens : List Token) : Prop :=
  tokens.IsChain fun one next => one.isOpenEnded = true → next.isOpenEnded = false

theorem goesOn_of_isSpace {c : Char} (space : isSpace c = true) : goesOn c = false := by
  simp only [isSpace, decide_eq_true_eq] at space
  rcases space with rfl | rfl | rfl | rfl <;> decide

/-- A text does not go on with the word in front of it, unless its own first word does. -/
theorem head_of_spells {tokens : List Token} {text : List Char} (spelled : Spells tokens text)
    (closed : ∀ token ∈ tokens.head?, token.isOpenEnded = false) :
    ∀ c ∈ text.head?, goesOn c = false := by
  intro c leads
  cases spelled with
  | nothing all_space => exact goesOn_of_isSpace (all_space c (List.mem_of_mem_head? leads))
  | @word token tokens blanks word text all_space first rest =>
    cases blanks with
    | nil =>
      obtain ⟨lead, more, rfl, -, marks⟩ := first.exists_cons
      obtain rfl : lead = c := Option.some.inj leads
      exact marks (closed token rfl)
    | cons space blanks =>
      obtain rfl : space = c := Option.some.inj leads
      exact goesOn_of_isSpace (all_space space List.mem_cons_self)

/-- The words of a text are those it spells, whatever its blanks, its numbers and its strings. -/
theorem tokens?_of_spells {tokens : List Token} {text : List Char} (spelled : Spells tokens text)
    (parted : Parted tokens) : tokens? text = some tokens := by
  induction spelled with
  | @nothing blanks all_space =>
    have passed := tokens?_blanks all_space []
    rwa [List.append_nil, tokens?] at passed
  | @word token tokens blanks word text all_space first rest ih =>
    obtain ⟨apart, parted⟩ := List.isChain_cons.mp parted
    have ends : token.EndsBefore text := fun open_ended =>
      head_of_spells rest fun next leads => apart next leads open_ended
    obtain ⟨c, more, rfl, visible, -⟩ := first.exists_cons
    rw [List.append_assoc, tokens?_blanks all_space, List.cons_append,
      tokens?_cons visible (token?_of_isSpelledBy first ends), ih parted, Option.map_some]

end ElfLens.Json
