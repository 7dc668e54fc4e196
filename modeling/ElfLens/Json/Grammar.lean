import ElfLens.Json.Token

set_option autoImplicit false

namespace ElfLens.Json

def IsDigitRun (text : List Char) : Prop := text ≠ [] ∧ ∀ c ∈ text, c.isDigit = true

/-- The whole part of a number: zero, or digits of which the first is not zero. -/
inductive IsWhole : List Char → Prop where
  | zero : IsWhole ['0']
  | positive {c : Char} {digits : List Char} (first : c.isDigit = true) (nonzero : c ≠ '0')
      (more : ∀ d ∈ digits, d.isDigit = true) : IsWhole (c :: digits)

inductive IsFraction : List Char → Prop where
  | absent : IsFraction []
  | digits {digits : List Char} (run : IsDigitRun digits) : IsFraction ('.' :: digits)

inductive IsPower : List Char → Prop where
  | absent : IsPower []
  | unsigned {letter : Char} {digits : List Char} (marks : letter ∈ ['e', 'E'])
      (run : IsDigitRun digits) : IsPower (letter :: digits)
  | signed {letter sign : Char} {digits : List Char} (marks : letter ∈ ['e', 'E'])
      (signs : sign ∈ ['+', '-']) (run : IsDigitRun digits) : IsPower (letter :: sign :: digits)

inductive IsNumeral : List Char → Prop where
  | positive {whole fraction power : List Char} (first : IsWhole whole)
      (second : IsFraction fraction) (third : IsPower power) :
      IsNumeral (whole ++ fraction ++ power)
  | negative {whole fraction power : List Char} (first : IsWhole whole)
      (second : IsFraction fraction) (third : IsPower power) :
      IsNumeral ('-' :: (whole ++ fraction ++ power))

inductive Piece.IsSpelledBy : Piece → List Char → Prop where
  /-- A character that stands for itself. -/
  | plain {c : Char} (printable : 0x20 ≤ c.toNat) (no_quote : c ≠ '"') (no_escape : c ≠ '\\') :
      IsSpelledBy (.char c) [c]
  /-- An escape of one letter. -/
  | letter {letter c : Char} (stands : escape? letter = some c) :
      IsSpelledBy (.char c) ['\\', letter]
  /-- An escape of four hexadecimal digits. -/
  | digits {a b c d : Char} {code : Nat} (value : Text.digits? 16 [a, b, c, d] = some code) :
      IsSpelledBy (.unit code) ['\\', 'u', a, b, c, d]

inductive SpellsPieces : List Piece → List Char → Prop where
  | nil : SpellsPieces [] []
  | cons {piece : Piece} {pieces : List Piece} {part text : List Char}
      (first : piece.IsSpelledBy part) (rest : SpellsPieces pieces text) :
      SpellsPieces (piece :: pieces) (part ++ text)

inductive Token.IsSpelledBy : Token → List Char → Prop where
  | openBracket : IsSpelledBy .openBracket ['[']
  | closeBracket : IsSpelledBy .closeBracket [']']
  | openBrace : IsSpelledBy .openBrace ['\x7b']
  | closeBrace : IsSpelledBy .closeBrace ['\x7d']
  | comma : IsSpelledBy .comma [',']
  | colon : IsSpelledBy .colon [':']
  | null : IsSpelledBy .null ['n', 'u', 'l', 'l']
  | yes : IsSpelledBy (.bool true) ['t', 'r', 'u', 'e']
  | no : IsSpelledBy (.bool false) ['f', 'a', 'l', 's', 'e']
  | number {spelling : List Char} (numeral : IsNumeral spelling) :
      IsSpelledBy (.number spelling) spelling
  | string {pieces : List Piece} {text : List Char} (inside : SpellsPieces pieces text) :
      IsSpelledBy (.string ((textOf pieces).map String.ofList)) ('"' :: text ++ ['"'])

/-- A text spells words: any blanks stand in front of each of them and behind the last one. -/
inductive Spells : List Token → List Char → Prop where
  | nothing {blanks : List Char} (all_space : ∀ c ∈ blanks, isSpace c = true) : Spells [] blanks
  | word {token : Token} {tokens : List Token} {blanks word text : List Char}
      (all_space : ∀ c ∈ blanks, isSpace c = true) (first : token.IsSpelledBy word)
      (rest : Spells tokens text) : Spells (token :: tokens) (blanks ++ word ++ text)

end ElfLens.Json
