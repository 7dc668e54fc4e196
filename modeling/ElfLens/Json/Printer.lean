import ElfLens.Json.Token
import ElfLens.Json.Value

set_option autoImplicit false

namespace ElfLens.Json

def escaped (c : Char) : List Char :=
  match c with
  | '"' => ['\\', '"']
  | '\\' => ['\\', '\\']
  | '\x08' => ['\\', 'b']
  | '\x0c' => ['\\', 'f']
  | '\n' => ['\\', 'n']
  | '\r' => ['\\', 'r']
  | '\t' => ['\\', 't']
  | _ => if c.toNat < 0x20 then ['\\', 'u', '0', '0'] ++ Text.hexByte c.toUInt8 else [c]

/-- A string in its quotes. One without a text is written as half of a surrogate pair. -/
def quoted (text? : Option String) : List Char :=
  match text? with
  | some text => '"' :: text.toList.flatMap escaped ++ ['"']
  | none => ['"', '\\', 'u', 'd', '8', '0', '0', '"']

namespace Token

def spell : Token → List Char
  | openBracket => ['[']
  | closeBracket => [']']
  | openBrace => ['\x7b']
  | closeBrace => ['\x7d']
  | comma => [',']
  | colon => [':']
  | null => ['n', 'u', 'l', 'l']
  | bool true => ['t', 'r', 'u', 'e']
  | bool false => ['f', 'a', 'l', 's', 'e']
  | number spelling => spelling
  | string text? => quoted text?

end Token

/-- The end of a line and the blanks in front of the next one. -/
def margin (depth : Nat) : List Char := '\n' :: List.replicate (2 * depth) ' '

namespace Value

mutual

def tokens : Value → List Token
  | null => [.null]
  | bool value => [.bool value]
  | number spelling => [.number spelling]
  | string text? => [.string text?]
  | array items => .openBracket :: itemTokens items ++ [.closeBracket]
  | object members => .openBrace :: memberTokens members ++ [.closeBrace]

def itemTokens : List Value → List Token
  | [] => []
  | [item] => item.tokens
  | item :: rest => item.tokens ++ .comma :: itemTokens rest

def memberTokens : List (Option String × Value) → List Token
  | [] => []
  | [(key?, value)] => .string key? :: .colon :: value.tokens
  | (key?, value) :: rest =>
    .string key? :: .colon :: value.tokens ++ .comma :: memberTokens rest

end

mutual

/-- A document that starts `depth` containers deep. -/
def pretty (depth : Nat) : Value → List Char
  | null => Token.null.spell
  | bool value => (Token.bool value).spell
  | number spelling => spelling
  | string text? => quoted text?
  | array [] => ['[', ']']
  | array items => '[' :: prettyItems (depth + 1) items ++ margin depth ++ [']']
  | object [] => ['\x7b', '\x7d']
  | object members => '\x7b' :: prettyMembers (depth + 1) members ++ margin depth ++ ['\x7d']

def prettyItems (depth : Nat) : List Value → List Char
  | [] => []
  | [item] => margin depth ++ item.pretty depth
  | item :: rest => margin depth ++ item.pretty depth ++ ',' :: prettyItems depth rest

def prettyMembers (depth : Nat) : List (Option String × Value) → List Char
  | [] => []
  | [(key?, value)] => margin depth ++ quoted key? ++ [':', ' '] ++ value.pretty depth
  | (key?, value) :: rest =>
    margin depth ++ quoted key? ++ [':', ' '] ++ value.pretty depth ++
      ',' :: prettyMembers depth rest

end

end Value
end ElfLens.Json
