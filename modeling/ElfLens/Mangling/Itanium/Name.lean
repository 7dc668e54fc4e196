import ElfLens.Mangling.Itanium.Reader

set_option autoImplicit false

namespace ElfLens.Mangling.Itanium

def operatorSymbols : List (String × String) := [
  ("nw", " new"), ("na", " new[]"), ("dl", " delete"), ("da", " delete[]"),
  ("ps", "+"), ("ng", "-"), ("ad", "&"), ("de", "*"), ("co", "~"), ("pl", "+"), ("mi", "-"),
  ("ml", "*"), ("dv", "/"), ("rm", "%"), ("an", "&"), ("or", "|"), ("eo", "^"), ("aS", "="),
  ("pL", "+="), ("mI", "-="), ("mL", "*="), ("dV", "/="), ("rM", "%="), ("aN", "&="), ("oR", "|="),
  ("eO", "^="), ("ls", "<<"), ("rs", ">>"), ("lS", "<<="), ("rS", ">>="), ("eq", "=="),
  ("ne", "!="),
  ("lt", "<"), ("gt", ">"), ("le", "<="), ("ge", ">="), ("nt", "!"), ("aa", "&&"), ("oo", "||"),
  ("pp", "++"), ("mm", "--"), ("cm", ","), ("pm", "->*"), ("pt", "->"), ("cl", "()"), ("ix", "[]"),
  ("qu", "?:"), ("ss", "<=>")]

def standardLetters : List (Char × Standard) := [
  ('t', .scope), ('a', .allocator), ('b', .basicString), ('s', .string), ('i', .istream),
  ('o', .ostream), ('d', .iostream)]

def isIdentifierChar (c : Char) : Bool := c.isAlphanum || c = '$' || c = '_' || c = '.'

namespace Reader

def identifier : Reader String := do
  let length ← number
  if length = 0 then failure
  let text ← exactly length
  if text.all isIdentifierChar then return String.ofList text else failure

def operatorSymbol : Reader Node := do
  let code := String.ofList (← exactly 2)
  let some symbol := operatorSymbols.lookup code | failure
  return .operatorSymbol symbol

def lifecycle : Reader Node := do
  let kind ← next
  let variant ← next
  match kind with
  | 'C' => if variant ∈ ['1', '2', '3', '4'] then return .constructor else failure
  | 'D' => if variant ∈ ['0', '1', '2', '4'] then return .destructor else failure
  | _ => failure

/-- The number that tells local entities of one name apart. -/
def discriminator : Reader Nat := do
  expect "_"
  if ← accepts "_" then
    let n ← number
    expect "_"
    if n < 10 then failure else return n
  else
    let c ← next
    if c.isDigit then return digitValue c else failure

def standard : Reader Node := do
  expect "S"
  let some entity := standardLetters.lookup (← next) | failure
  return .standard entity

/-- An abbreviation, or a reference to a part that was kept. -/
def substitution : Reader Node := standard <|> do
  expect "S"
  part (← place)

def parameter : Reader Node := do
  expect "T"
  return .parameter (← place)

/-- Qualifiers, in the only order in which they are written. -/
def qualifiers : Reader Qualifiers := do
  let isRestrict ← accepts "r"
  let isVolatile ← accepts "V"
  let isConst ← accepts "K"
  return { isConst, isVolatile, isRestrict }

/-- The kind of a reference that an object may be reached through. -/
def reference? : Reader (Option Reference) := do
  if ← accepts "R" then return some .lvalue
  if ← accepts "O" then return some .rvalue
  return none

def tags (name : Node) : Reader Node := do
  let marks ← many do
    expect "B"
    identifier
  return marks.foldl .tagged name

end Reader
end ElfLens.Mangling.Itanium
