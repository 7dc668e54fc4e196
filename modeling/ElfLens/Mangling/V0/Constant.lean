import ElfLens.Bytes.Basic
import ElfLens.Mangling.V0.Level

set_option autoImplicit false

namespace ElfLens.Mangling.V0

open Printer

/-- The value of hexadecimal digits when it fits in 64 bits. -/
def word? (nibbles : List Char) : Option Nat :=
  (Text.extendDigits? 16 0 nibbles).filter (· < UInt64.size)

/-- Writes a natural number, which is left in its digits when it does not fit in 64 bits. -/
def natural : Printer Unit := do
  let some nibbles ← read? Reader.nibbles | return
  match word? nibbles with
  | some value => write (toString value)
  | none =>
    write "0x"
    write (String.ofList nibbles)

def quoted (quote c : Char) : String :=
  match c with
  | '\x00' => "\\0"
  | '\t' => "\\t"
  | '\r' => "\\r"
  | '\n' => "\\n"
  | '\\' => "\\\\"
  | _ =>
    if c = quote then String.ofList ['\\', c]
    else if c.toNat < 0x20 ∨ c.toNat = 0x7f then
      "\\u\x7b" ++ Text.hexDigits c.toNat ++ "\x7d"
    else String.singleton c

def bytes? : List Char → Option (List UInt8)
  | [] => some []
  | high :: low :: rest =>
    (Text.digits? 16 [high, low]).bind fun value => (bytes? rest).map (value.toUInt8 :: ·)
  | [_] => none

/-- Writes a string that is spelled byte by byte. -/
def stringLiteral : Printer Unit := do
  let some nibbles ← read? Reader.nibbles | return
  match (bytes? nibbles).bind fun bytes => Bytes.text? bytes.toArray with
  | some text =>
    write "\""
    text.toList.forM fun c => write (quoted '"' c)
    write "\""
  | none => damage invalid

def fields (level : Level) : Printer Unit := do
  write " \x7b "
  let _ ← list ", " do
    let some _ ← read? Reader.disambiguator | return
    let some identifier ← read? Reader.identifier | return
    writeIdentifier identifier
    write ": "
    level.const true
  write " \x7d"

/-- Writes a constant that needs braces outside an expression. The answer is false when what was
read broke off, so that no brace closes it. -/
def expression (level : Level) (tag : Char) : Printer Bool := do
  match tag with
  | 'e' =>
    write "*"
    stringLiteral
    return true
  | 'R' =>
    write "&"
    level.const true
    return true
  | 'Q' =>
    write "&mut "
    level.const true
    return true
  | 'A' =>
    write "["
    let _ ← list ", " (level.const true)
    write "]"
    return true
  | 'T' =>
    tuple (level.const true)
    return true
  | _ =>
    level.path true
    match ← read? Reader.next with
    | some 'U' => return true
    | some 'T' =>
      write "("
      let _ ← list ", " (level.const true)
      write ")"
      return true
    | some 'S' =>
      fields level
      return true
    | some _ =>
      damage invalid
      return false
    | none => return false

def constant (level : Level) (inValue : Bool) (tag : Char) : Printer Unit := do
  match tag with
  | 'p' => write "_"
  | 'b' =>
    let some nibbles ← read? Reader.nibbles | return
    match word? nibbles with
    | some 0 => write "false"
    | some 1 => write "true"
    | _ => damage invalid
  | 'c' =>
    let some nibbles ← read? Reader.nibbles | return
    match (word? nibbles).bind Text.charOfCode? with
    | some c =>
      write "'"
      write (quoted '\'' c)
      write "'"
    | none => damage invalid
  | 'B' => level.reference () (·.const inValue)
  | _ =>
    if tag ∈ ['h', 't', 'm', 'y', 'o', 'j'] then natural
    else if tag ∈ ['a', 's', 'l', 'x', 'n', 'i'] then
      if ← accepts 'n' then write "-"
      natural
    else if tag = 'R' then
      if ← accepts 'e' then stringLiteral else braced
    else if tag ∈ ['e', 'Q', 'A', 'T', 'V'] then braced
    else damage invalid
where
  /-- Writes an expression, in braces where it needs them. -/
  braced : Printer Unit := do
    if ! inValue then write "\x7b"
    let isWhole ← expression level tag
    if ! inValue && isWhole then write "\x7d"

def const (level? : Option Level) (inValue : Bool) : Printer Unit := do
  let some tag ← read? Reader.next | return
  match level? with
  | some level => constant level inValue tag
  | none => damage tooDeep

end ElfLens.Mangling.V0
