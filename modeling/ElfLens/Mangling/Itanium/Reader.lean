import ElfLens.Mangling.Itanium.Node

set_option autoImplicit false

namespace ElfLens.Mangling.Itanium

/-- What is left of a name, and the parts that references can name. -/
structure Scan where
  rest : List Char
  parts : Array Node

/-- Reads from the front of a name. A reader that fails takes nothing. -/
abbrev Reader (α : Type) := StateT Scan Option α

namespace Reader

def peek? : Reader (Option Char) := return (← get).rest.head?

def next : Reader Char := do
  let scan ← get
  match scan.rest with
  | [] => failure
  | c :: rest =>
    set { scan with rest }
    return c

def accepts (expected : String) : Reader Bool := do
  let scan ← get
  if expected.toList.isPrefixOf scan.rest then
    set { scan with rest := scan.rest.drop expected.length }
    return true
  else return false

def expect (expected : String) : Reader Unit := do
  if ! (← accepts expected) then failure

def takeWhile (inClass : Char → Bool) : Reader (List Char) := do
  let scan ← get
  set { scan with rest := scan.rest.dropWhile inClass }
  return scan.rest.takeWhile inClass

/-- Reads as long as the reader succeeds, `fuel` times at most. -/
def repeated {α : Type} (reader : Reader α) : (fuel : Nat) → Reader (List α)
  | 0 => return []
  | fuel + 1 => do
    match ← optional reader with
    | some value => return value :: (← repeated reader fuel)
    | none => return []

/-- Reads as long as the reader succeeds. A reader that succeeds takes at least one character. -/
def many {α : Type} (reader : Reader α) : Reader (List α) := do
  repeated reader (← get).rest.length

/-- Reads at least once and as long as the reader succeeds. -/
def many1 {α : Type} (reader : Reader α) : Reader (List α) := do
  let values ← many reader
  if values.isEmpty then failure else return values

/-- The value of a digit; capital letters follow the decimal digits. -/
def digitValue (c : Char) : Nat :=
  if c.isDigit then c.toNat - '0'.toNat else c.toNat - 'A'.toNat + 10

/-- The largest number that a name may hold. -/
def numberLimit : Nat := 0x7fffffffffffffff

/-- A number without leading zeros whose digits are of a class. -/
def numeral (base : Nat) (isDigit : Char → Bool) : Reader Nat := do
  let digits ← takeWhile isDigit
  if digits.isEmpty ∨ (digits.head? = some '0' ∧ digits ≠ ['0']) then failure
  let value := digits.foldl (fun value c => base * value + digitValue c) 0
  if value ≤ numberLimit then return value else failure

def number : Reader Nat := numeral 10 Char.isDigit

/-- The place that an underscore ends: none spells the first place, and numbers to base thirty-six
spell those behind it. -/
def place : Reader Nat := do
  let index? ← optional (numeral 36 fun c => c.isDigit || c.isUpper)
  expect "_"
  return (index?.map (· + 1)).getD 0

/-- The ordinal that an underscore ends: none spells the first one. -/
def ordinal : Reader Nat := do
  let index? ← optional number
  expect "_"
  return (index?.map (· + 2)).getD 1

def exactly (n : Nat) : Reader (List Char) := do
  let scan ← get
  if n ≤ scan.rest.length then
    set { scan with rest := scan.rest.drop n }
    return scan.rest.take n
  else failure

def keep (part : Node) : Reader Node := do
  modify fun scan => { scan with parts := scan.parts.push part }
  return part

def part (place : Nat) : Reader Node := do
  let some part := (← get).parts[place]? | failure
  return part

end Reader
end ElfLens.Mangling.Itanium
