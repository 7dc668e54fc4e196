import ElfLens.Mangling.Itanium.Grammar
import ElfLens.Mangling.Itanium.Show

set_option autoImplicit false

namespace ElfLens.Mangling.Itanium

open Reader

def depthLimit : Nat := 91

def isCopyChar (c : Char) : Bool := c.isAlphanum || c = '$' || c = '_'

def copy : Reader String := do
  expect "."
  let word ← takeWhile isCopyChar
  if word.isEmpty then failure
  let numbers ← many do
    expect "."
    number
  return " [clone ." ++ String.ofList word ++
    String.join (numbers.map fun n => "." ++ toString n) ++ "]"

/-- The name starts with a mark of this interface. -/
def isMarked (name : List Char) : Bool :=
  ['_', 'Z'].isPrefixOf name || ['_', '_', 'Z'].isPrefixOf name

/-- A symbol behind its mark, and the marks of copies. -/
def marked : Reader (Node × List String) := do
  if ! (← accepts "_Z") then expect "__Z"
  let node ← (Grammar.ofDepth depthLimit).symbol
  return (node, ← many copy)

def demangle? (name : List Char) : Option String := do
  let ((node, copies), scan) ← marked.run ⟨name, #[]⟩
  guard scan.rest.isEmpty
  return (← node.text?) ++ String.join copies

end ElfLens.Mangling.Itanium
