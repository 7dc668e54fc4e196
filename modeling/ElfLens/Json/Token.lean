import ElfLens.Text.Hex

set_option autoImplicit false

namespace ElfLens.Json

inductive Token where
  | openBracket
  | closeBracket
  | openBrace
  | closeBrace
  | comma
  | colon
  | null
  | bool (value : Bool)
  | number (spelling : List Char)
  | string (text? : Option String)
  deriving DecidableEq

def isSpace (c : Char) : Bool := c = ' ' ∨ c = '\t' ∨ c = '\n' ∨ c = '\r'

/-- A part of a string: a character, or a number of sixteen bits that an escape spells. -/
inductive Piece where
  | char (c : Char)
  | unit (code : Nat)

/-- The character that an escape of one letter stands for. -/
def escape? : Char → Option Char
  | '"' => some '"'
  | '\\' => some '\\'
  | '/' => some '/'
  | 'b' => some '\x08'
  | 'f' => some '\x0c'
  | 'n' => some '\n'
  | 'r' => some '\r'
  | 't' => some '\t'
  | _ => none

/-- The parts of a string up to its closing quote, and what follows the quote. -/
def stringBody : List Char → Option (List Piece × List Char)
  | [] => none
  | '"' :: rest => some ([], rest)
  | '\\' :: 'u' :: a :: b :: c :: d :: rest =>
    (Text.digits? 16 [a, b, c, d]).bind fun code =>
      (stringBody rest).map fun (pieces, after) => (.unit code :: pieces, after)
  | '\\' :: letter :: rest =>
    (escape? letter).bind fun c =>
      (stringBody rest).map fun (pieces, after) => (.char c :: pieces, after)
  | c :: rest =>
    if c.toNat < 0x20 then none
    else (stringBody rest).map fun (pieces, after) => (.char c :: pieces, after)

/-- The text of a string: two halves of a surrogate pair are one character, and a half on its own is
none. -/
def textOf : List Piece → Option (List Char)
  | [] => some []
  | .char c :: rest => (textOf rest).map (c :: ·)
  | .unit high :: .unit low :: rest =>
    if 0xd800 ≤ high ∧ high < 0xdc00 then
      if 0xdc00 ≤ low ∧ low < 0xe000 then
        (textOf rest).map (Char.ofNat (0x10000 + (high - 0xd800) * 0x400 + (low - 0xdc00)) :: ·)
      else none
    else if 0xdc00 ≤ high ∧ high < 0xe000 then none
    else (textOf (.unit low :: rest)).map (Char.ofNat high :: ·)
  | .unit code :: rest =>
    if 0xd800 ≤ code ∧ code < 0xe000 then none else (textOf rest).map (Char.ofNat code :: ·)

def isNumberChar (c : Char) : Bool := c.isDigit ∨ c = '-' ∨ c = '+' ∨ c = '.' ∨ c = 'e' ∨ c = 'E'

def isDigits (text : List Char) : Bool := ! text.isEmpty && text.all Char.isDigit

def isNatural : List Char → Bool
  | ['0'] => true
  | '0' :: _ => false
  | text => isDigits text

def isExponent : List Char → Bool
  | '+' :: digits => isDigits digits
  | '-' :: digits => isDigits digits
  | digits => isDigits digits

/-- A natural number with a fraction and an exponent, each of which may be missing. -/
def isMagnitude (text : List Char) : Bool :=
  let (mantissa, exponent) := text.span fun c => c ≠ 'e' ∧ c ≠ 'E'
  let (whole, fraction) := mantissa.span (· ≠ '.')
  isNatural whole &&
    (match fraction with
    | [] => true
    | _ :: digits => isDigits digits) &&
    (match exponent with
    | [] => true
    | _ :: digits => isExponent digits)

def isNumber : List Char → Bool
  | '-' :: text => isMagnitude text
  | text => isMagnitude text

def named? (name : List Char) : Option Token :=
  if name = ['n', 'u', 'l', 'l'] then some .null
  else if name = ['t', 'r', 'u', 'e'] then some (.bool true)
  else if name = ['f', 'a', 'l', 's', 'e'] then some (.bool false)
  else none

def punctuation? : Char → Option Token
  | '[' => some .openBracket
  | ']' => some .closeBracket
  | '\x7b' => some .openBrace
  | '\x7d' => some .closeBrace
  | ',' => some .comma
  | ':' => some .colon
  | _ => none

/-- The first word of a text that starts with one, and what follows it. -/
def token? (first : Char) (rest : List Char) : Option (Token × List Char) :=
  match punctuation? first with
  | some token => some (token, rest)
  | none =>
    if first = '"' then
      (stringBody rest).map fun (pieces, after) =>
        (.string ((textOf pieces).map String.ofList), after)
    else if first.isAlpha then
      (named? (first :: rest.takeWhile Char.isAlpha)).map (·, rest.dropWhile Char.isAlpha)
    else
      let spelling := first :: rest.takeWhile isNumberChar
      if isNumber spelling then some (.number spelling, rest.dropWhile isNumberChar) else none

theorem length_of_stringBody {text rest : List Char} {pieces : List Piece}
    (success : stringBody text = some (pieces, rest)) : rest.length ≤ text.length := by
  fun_induction stringBody text generalizing pieces rest with
  | case1 => simp at success
  | case2 => simp_all
  | case3 a b c d text ih =>
    simp only [Option.bind_eq_some_iff, Option.map_eq_some_iff, Prod.mk.injEq] at success
    obtain ⟨code, -, ⟨more, after⟩, body, -, rfl⟩ := success
    have := ih body
    simp only [List.length_cons]
    omega
  | case4 letter text _ ih =>
    simp only [Option.bind_eq_some_iff, Option.map_eq_some_iff, Prod.mk.injEq] at success
    obtain ⟨c, -, ⟨more, after⟩, body, -, rfl⟩ := success
    have := ih body
    simp only [List.length_cons]
    omega
  | case5 => simp at success
  | case6 c text _ _ _ _ ih =>
    simp only [Option.map_eq_some_iff, Prod.mk.injEq] at success
    obtain ⟨⟨more, after⟩, body, -, rfl⟩ := success
    have := ih body
    simp only [List.length_cons]
    omega

theorem length_of_token? {first : Char} {rest after : List Char} {token : Token}
    (success : token? first rest = some (token, after)) : after.length ≤ rest.length := by
  unfold token? at success
  split at success
  · simp_all
  · split at success
    · simp only [Option.map_eq_some_iff] at success
      obtain ⟨⟨pieces, tail⟩, body, same⟩ := success
      simp only [Prod.mk.injEq] at same
      exact same.2 ▸ length_of_stringBody body
    · split at success
      · simp only [Option.map_eq_some_iff, Prod.mk.injEq] at success
        obtain ⟨-, -, -, rfl⟩ := success
        exact (List.dropWhile_suffix _).length_le
      · simp only at success
        split at success
        · simp only [Option.some.injEq, Prod.mk.injEq] at success
          rw [← success.2]
          exact (List.dropWhile_suffix _).length_le
        · simp at success

def tokens? : List Char → Option (List Token)
  | [] => some []
  | c :: rest =>
    if isSpace c then tokens? rest
    else
      match found : token? c rest with
      | none => none
      | some (token, after) =>
        have := length_of_token? found
        (tokens? after).map (token :: ·)
termination_by text => text.length

end ElfLens.Json
