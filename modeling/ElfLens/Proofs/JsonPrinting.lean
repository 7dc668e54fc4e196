import ElfLens.Json.Grammar
import ElfLens.Json.Printer

set_option autoImplicit false

namespace ElfLens.Json

/-! ### Numbers -/

/-- The digits of a number that is not zero start with another digit than zero. -/
theorem toDigits_eq_cons {n : Nat} (positive : 0 < n) :
    ∃ first rest, Nat.toDigits 10 n = first :: rest ∧ first ≠ '0' := by
  induction n using Nat.strongRecOn with
  | ind n ih =>
    by_cases small : n < 10
    · refine ⟨n.digitChar, [], Nat.toDigits_of_lt_base small, ?_⟩
      have every : ∀ digit < 10, 0 < digit → digit.digitChar ≠ '0' := by decide
      exact every n small positive
    · have shorter : n / 10 < n := by omega
      have above : 0 < n / 10 := by omega
      obtain ⟨first, rest, same, nonzero⟩ := ih (n / 10) shorter above
      refine ⟨first, rest ++ [(n % 10).digitChar], ?_, nonzero⟩
      rw [Nat.toDigits_of_base_le (by decide) (by omega), same, List.cons_append]

theorem isWhole_toDigits (n : Nat) : IsWhole (Nat.toDigits 10 n) := by
  rcases Nat.eq_zero_or_pos n with rfl | positive
  · exact .zero
  · have digits : ∀ c ∈ Nat.toDigits 10 n, c.isDigit = true := fun c listed =>
      Nat.isDigit_of_mem_toDigits (by decide) (by decide) listed
    obtain ⟨first, rest, same, nonzero⟩ := toDigits_eq_cons positive
    rw [same] at digits ⊢
    obtain ⟨first_digit, digits⟩ := List.forall_mem_cons.mp digits
    exact .positive first_digit nonzero digits

theorem isNumeral_toDigits (n : Nat) : IsNumeral (Nat.toDigits 10 n) := by
  have numeral := IsNumeral.positive (isWhole_toDigits n) .absent .absent
  rwa [List.append_nil, List.append_nil] at numeral

/-! ### Strings -/

/-- A unit that is no half of a surrogate pair stands for its character. -/
theorem textOf_unit {code : Nat} (low : code < 0xd800) (pieces : List Piece) :
    textOf (.unit code :: pieces) = (textOf pieces).map (Char.ofNat code :: ·) := by
  have no_half : ¬ 0xd800 ≤ code := by omega
  have no_low : ¬ 0xdc00 ≤ code := by omega
  cases pieces with
  | nil => simp [textOf, no_half]
  | cons piece pieces => cases piece <;> simp [textOf, no_half, no_low]

/-- The digits that escape a control character. -/
theorem digits?_of_control {c : Char} (control : c.toNat < 0x20) :
    Text.digits? 16 (['0', '0'] ++ Text.hexByte c.toUInt8) = some c.toNat := by
  have every : ∀ code < 0x20,
      Text.digits? 16 (['0', '0'] ++ Text.hexByte (Char.ofNat code).toUInt8) = some code := by
    decide
  have escape := every c.toNat control
  rwa [Char.ofNat_toNat] at escape

/-- A character is written as one part of a string, which stands for it. -/
theorem exists_piece (c : Char) :
    ∃ piece : Piece, piece.IsSpelledBy (escaped c) ∧
      ∀ pieces, textOf (piece :: pieces) = (textOf pieces).map (c :: ·) := by
  unfold escaped
  split
  case h_8 no_quote no_escape _ _ _ _ _ =>
    by_cases control : c.toNat < 0x20
    · rw [if_pos control]
      refine ⟨.unit c.toNat, .digits (digits?_of_control control), fun pieces => ?_⟩
      rw [textOf_unit (by omega), Char.ofNat_toNat]
    · rw [if_neg control]
      exact ⟨.char c, .plain (by omega) no_quote no_escape, fun _ => rfl⟩
  all_goals exact ⟨.char _, .letter rfl, fun _ => rfl⟩

theorem exists_pieces (text : List Char) :
    ∃ pieces, SpellsPieces pieces (text.flatMap escaped) ∧ textOf pieces = some text := by
  induction text with
  | nil => exact ⟨[], .nil, rfl⟩
  | cons c text ih =>
    obtain ⟨piece, first, stands⟩ := exists_piece c
    obtain ⟨pieces, rest, same⟩ := ih
    refine ⟨piece :: pieces, .cons first rest, ?_⟩
    rw [stands, same, Option.map_some]

theorem isSpelledBy_quoted (text? : Option String) :
    (Token.string text?).IsSpelledBy (quoted text?) := by
  cases text? with
  | none =>
    have half : (Piece.unit 0xd800).IsSpelledBy ['\\', 'u', 'd', '8', '0', '0'] := .digits rfl
    exact Token.IsSpelledBy.string (.cons half .nil)
  | some text =>
    obtain ⟨pieces, inside, same⟩ := exists_pieces text.toList
    have spelled := Token.IsSpelledBy.string inside
    rwa [same, Option.map_some, String.ofList_toList] at spelled

/-! ### Documents -/

namespace Spells

theorem cons {token : Token} {tokens : List Token} {word text : List Char}
    (first : token.IsSpelledBy word) (rest : Spells tokens text) :
    Spells (token :: tokens) (word ++ text) :=
  .word (List.forall_mem_nil _) first rest

theorem append_blanks {tokens : List Token} {blanks text : List Char}
    (all_space : ∀ c ∈ blanks, isSpace c = true) (spelled : Spells tokens text) :
    Spells tokens (blanks ++ text) := by
  cases spelled with
  | nothing more_space => exact .nothing (List.forall_mem_append.mpr ⟨all_space, more_space⟩)
  | word more_space first rest =>
    rw [← List.append_assoc, ← List.append_assoc]
    exact .word (List.forall_mem_append.mpr ⟨all_space, more_space⟩) first rest

end Spells

theorem isSpace_of_mem_margin (depth : Nat) : ∀ c ∈ margin depth, isSpace c = true := by
  refine List.forall_mem_cons.mpr ⟨by decide, fun c listed => ?_⟩
  rw [List.eq_of_mem_replicate listed]
  decide

/-- The numbers of these words are spelled as numbers. -/
def HaveNumerals (tokens : List Token) : Prop :=
  ∀ spelling, Token.number spelling ∈ tokens → IsNumeral spelling

namespace HaveNumerals

theorem append {front back : List Token} :
    HaveNumerals (front ++ back) ↔ HaveNumerals front ∧ HaveNumerals back := by
  simp only [HaveNumerals, List.mem_append, or_imp, forall_and]

theorem of_cons {token : Token} {tokens : List Token} (numerals : HaveNumerals (token :: tokens)) :
    HaveNumerals tokens := fun spelling listed => numerals spelling (List.mem_cons_of_mem _ listed)

end HaveNumerals

mutual

/-- A document in front of a text that spells words. -/
theorem spells_pretty (value : Value) (depth : Nat) (numerals : HaveNumerals value.tokens)
    {tokens : List Token} {text : List Char} (after : Spells tokens text) :
    Spells (value.tokens ++ tokens) (value.pretty depth ++ text) := by
  match value with
  | .null => exact .cons .null after
  | .bool true => exact .cons .yes after
  | .bool false => exact .cons .no after
  | .number spelling => exact .cons (.number (numerals spelling List.mem_cons_self)) after
  | .string text? => exact .cons (isSpelledBy_quoted text?) after
  | .array [] =>
    have spelled := Spells.cons .openBracket (.cons .closeBracket after)
    exact spelled
  | .array (item :: items) =>
    have inside := (HaveNumerals.append.mp numerals.of_cons).1
    have closed := Spells.append_blanks (isSpace_of_mem_margin depth) (.cons .closeBracket after)
    have spelled := Spells.cons .openBracket
      (spells_prettyItems (item :: items) (depth + 1) inside closed)
    simpa [Value.tokens, Value.pretty] using spelled
  | .object [] =>
    have spelled := Spells.cons .openBrace (.cons .closeBrace after)
    exact spelled
  | .object (member :: members) =>
    have inside := (HaveNumerals.append.mp numerals.of_cons).1
    have closed := Spells.append_blanks (isSpace_of_mem_margin depth) (.cons .closeBrace after)
    have spelled := Spells.cons .openBrace
      (spells_prettyMembers (member :: members) (depth + 1) inside closed)
    simpa [Value.tokens, Value.pretty] using spelled

/-- The items of an array in front of a text that spells words. -/
theorem spells_prettyItems (items : List Value) (depth : Nat)
    (numerals : HaveNumerals (Value.itemTokens items)) {tokens : List Token} {text : List Char}
    (after : Spells tokens text) :
    Spells (Value.itemTokens items ++ tokens) (Value.prettyItems depth items ++ text) := by
  match items with
  | [] => exact after
  | [item] =>
    have spelled := Spells.append_blanks (isSpace_of_mem_margin depth)
      (spells_pretty item depth numerals after)
    simpa [Value.itemTokens, Value.prettyItems] using spelled
  | item :: next :: rest =>
    obtain ⟨first, others⟩ := HaveNumerals.append.mp numerals
    have separated := Spells.cons .comma
      (spells_prettyItems (next :: rest) depth others.of_cons after)
    have spelled := Spells.append_blanks (isSpace_of_mem_margin depth)
      (spells_pretty item depth first separated)
    simpa [Value.itemTokens, Value.prettyItems] using spelled

/-- The members of an object in front of a text that spells words. -/
theorem spells_prettyMembers (members : List (Option String × Value)) (depth : Nat)
    (numerals : HaveNumerals (Value.memberTokens members)) {tokens : List Token}
    {text : List Char} (after : Spells tokens text) :
    Spells (Value.memberTokens members ++ tokens) (Value.prettyMembers depth members ++ text) := by
  have blank : ∀ c ∈ [' '], isSpace c = true := List.forall_mem_singleton.mpr rfl
  match members with
  | [] => exact after
  | [(key?, value)] =>
    have given := Spells.append_blanks blank
      (spells_pretty value depth numerals.of_cons.of_cons after)
    have spelled := Spells.append_blanks (isSpace_of_mem_margin depth)
      (.cons (isSpelledBy_quoted key?) (.cons .colon given))
    simpa [Value.memberTokens, Value.prettyMembers] using spelled
  | (key?, value) :: next :: rest =>
    obtain ⟨first, others⟩ := HaveNumerals.append.mp numerals
    have separated := Spells.cons .comma
      (spells_prettyMembers (next :: rest) depth others.of_cons after)
    have given := Spells.append_blanks blank
      (spells_pretty value depth first.of_cons.of_cons separated)
    have spelled := Spells.append_blanks (isSpace_of_mem_margin depth)
      (.cons (isSpelledBy_quoted key?) (.cons .colon given))
    simpa [Value.memberTokens, Value.prettyMembers] using spelled

end

/-- The text written for a document spells its words. -/
theorem spells_tokens (value : Value) (depth : Nat) (numerals : HaveNumerals value.tokens) :
    Spells value.tokens (value.pretty depth) := by
  have spelled := spells_pretty value depth numerals (.nothing (List.forall_mem_nil _))
  rwa [List.append_nil, List.append_nil] at spelled

end ElfLens.Json
