import ElfLens.Mangling.Punycode
import ElfLens.Text.Hex

set_option autoImplicit false

namespace ElfLens.Mangling.V0

/-- Reads from the front of a name. -/
abbrev Reader (α : Type) := StateT (List Char) Option α

namespace Reader

def next : Reader Char
  | [] => none
  | c :: rest => some (c, rest)

def accepts (expected : Char) : Reader Bool
  | [] => some (false, [])
  | c :: rest => if c = expected then some (true, rest) else some (false, c :: rest)

def takeWhile (inClass : Char → Bool) : Reader (List Char) := fun text =>
  some (text.takeWhile inClass, text.dropWhile inClass)

def digit62? (c : Char) : Option Nat :=
  if c.isDigit then some (c.toNat - '0'.toNat)
  else if c.isLower then some (c.toNat - 'a'.toNat + 10)
  else if c.isUpper then some (c.toNat - 'A'.toNat + 36)
  else none

def value62? (digits : List Char) : Option Nat :=
  digits.foldlM (fun value c => (digit62? c).map (62 * value + ·)) 0

/-- Lets a number pass when it fits in 64 bits. -/
def fitting (n : Nat) : Reader Nat := if n < UInt64.size then pure n else failure

/-- A number up to its underscore: no digits spell zero, and others one more than their value. -/
def number62 : Reader Nat := do
  let digits ← takeWhile (· ≠ '_')
  let '_' ← next | failure
  if digits.isEmpty then return 0
  let some value := value62? digits | failure
  fitting (value + 1)

/-- A number behind a mark, one higher than it is spelled, or zero without the mark. -/
def markedNumber (mark : Char) : Reader Nat := do
  if ← accepts mark then fitting ((← number62) + 1) else return 0

/-- The number that tells entities of one name apart. -/
def disambiguator : Reader Nat := markedNumber 's'

/-- The letter of a namespace when it is a special one, which capital letters are. -/
def namespaceLetter : Reader (Option Char) := do
  let c ← next
  if c.isUpper then return some c
  if c.isLower then return none
  failure

/-- A number to base ten without leading zeros. -/
def count : Reader Nat := do
  if ← accepts '0' then return 0
  let some n := Text.digits? 10 (← takeWhile Char.isDigit) | failure
  return n

def exactly (n : Nat) : Reader (List Char) := fun text =>
  if n ≤ text.length then some (text.take n, text.drop n) else none

/-- The lower-case hexadecimal digits up to an underscore. -/
def nibbles : Reader (List Char) := do
  let digits ← takeWhile fun c => c.isDigit || ('a' ≤ c && c ≤ 'f')
  let '_' ← next | failure
  return digits

end Reader

/-- A name as it stands in a path: plain characters, and insertions when it has others. -/
structure Identifier where
  plain : List Char
  insertions : List Char

namespace Identifier

/-- The longest text that insertions are carried out for. -/
def lengthLimit : Nat := 128

def isEmpty (identifier : Identifier) : Bool :=
  identifier.plain.isEmpty && identifier.insertions.isEmpty

/-- The identifier that characters with insertions among them spell; the insertions stand behind the
last underscore and are not empty. -/
def ofEncoded? (text : List Char) : Option Identifier :=
  let tail := (text.reverse.takeWhile (· ≠ '_')).reverse
  if tail.isEmpty then none else some ⟨text.take (text.length - tail.length - 1), tail⟩

/-- The texts that show an identifier one after the other. Insertions that cannot be carried out are
shown as they are spelled. -/
def pieces (identifier : Identifier) : List String :=
  match Punycode.decode? lengthLimit identifier.plain identifier.insertions with
  | some text => text.map String.singleton
  | none =>
    if identifier.insertions.isEmpty then [String.ofList identifier.plain]
    else
      ["punycode\x7b"] ++
      (if identifier.plain.isEmpty then [] else [String.ofList identifier.plain, "-"]) ++
      [String.ofList identifier.insertions, "\x7d"]

end Identifier

def Reader.identifier : Reader Identifier := do
  let isEncoded ← accepts 'u'
  let length ← count
  let _ ← accepts '_'
  let text ← exactly length
  if isEncoded then
    let some identifier := Identifier.ofEncoded? text | failure
    return identifier
  else return ⟨text, []⟩

end ElfLens.Mangling.V0
