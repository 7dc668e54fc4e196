import ElfLens.Mangling.Itanium
import ElfLens.Mangling.Legacy
import ElfLens.Mangling.V0

set_option autoImplicit false

namespace ElfLens.Mangling

inductive Flavor where
  | rust
  | itanium
  | unknown
  deriving DecidableEq, Repr

/-- The digits that name a copy of a function made while linking. -/
def isCopyDigit (c : Char) : Bool := ('A' ≤ c && c ≤ 'F') || c.isDigit || c = '@'

/-- The first part of a text before a mark, and what is behind the mark. -/
def splitAt? (mark : List Char) : List Char → Option (List Char × List Char)
  | [] => none
  | c :: rest =>
    if mark.isPrefixOf (c :: rest) then some ([], (c :: rest).drop mark.length)
    else (splitAt? mark rest).map fun (before, behind) => (c :: before, behind)

/-- A name without the number of a copy made while linking. -/
def withoutCopy (name : List Char) : List Char :=
  match splitAt? ['.', 'l', 'l', 'v', 'm', '.'] name with
  | some (before, digits) => if digits.all isCopyDigit then before else name
  | none => name

/-- The text can follow a path: nothing does, or words behind a point. -/
def isSuffix : List Char → Bool
  | [] => true
  | '.' :: rest => rest.all fun c => 0x21 ≤ c.toNat && c.toNat ≤ 0x7e
  | _ => false

/-- The path of Rust that a name stands for, with what follows it. -/
def rustPath? (name : String) : Option String := do
  let name := withoutCopy name.toList
  let (path, rest) ← Legacy.demangle? name <|> V0.demangle? name
  guard (isSuffix rest)
  return path ++ String.ofList rest

def flavor (name : String) : Flavor :=
  if (rustPath? name).isSome then .rust
  else if Itanium.isMarked name.toList then .itanium
  else .unknown

/-- The text that a name stands for, and the kind of the name. -/
def demangle? (name : String) : Option (String × Flavor) :=
  match rustPath? name with
  | some path => some (path, .rust)
  | none =>
    if Itanium.isMarked name.toList then
      (Itanium.demangle? name.toList).map (·, .itanium)
    else none

end ElfLens.Mangling
