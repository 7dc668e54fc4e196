import ElfLens.Text.CodePoint
import ElfLens.Text.Hex

set_option autoImplicit false

namespace ElfLens.Mangling.Legacy

/-- The parts up to the letter that ends the list, and what follows the letter. -/
def parts? (text : List Char) : Option (List (List Char) × List Char) :=
  match text with
  | [] => none
  | 'E' :: rest => some ([], rest)
  | c :: rest =>
    if c.isDigit then
      let after := rest.dropWhile Char.isDigit
      (Text.digits? 10 (c :: rest.takeWhile Char.isDigit)).bind fun length =>
        (parts? (after.drop length)).map fun (parts, tail) => (after.take length :: parts, tail)
    else none
termination_by text.length
decreasing_by
  have := (List.dropWhile_suffix Char.isDigit (l := rest)).length_le
  simp only [List.length_drop, List.length_cons]
  omega

/-- The list of parts behind one of the marks that start such a name. -/
def body? : List Char → Option (List Char)
  | '_' :: 'Z' :: 'N' :: body => some body
  | 'Z' :: 'N' :: body => some body
  | '_' :: '_' :: 'Z' :: 'N' :: body => some body
  | _ => none

def isHash : List Char → Bool
  | 'h' :: digits => digits.all fun c => (Text.digitValue? 16 c).isSome
  | _ => false

/-- The character with this number to base sixteen, in lower-case digits, unless it is a control. -/
def numbered? (digits : List Char) : Option Char :=
  if digits.all (fun c => c.isDigit || ('a' ≤ c && c ≤ 'f')) then
    ((Text.digits? 16 digits).bind Text.charOfCode?).filter fun c => ! Text.isControl c
  else none

def escape? : List Char → Option Char
  | ['S', 'P'] => some '@'
  | ['B', 'P'] => some '*'
  | ['R', 'F'] => some '&'
  | ['L', 'T'] => some '<'
  | ['G', 'T'] => some '>'
  | ['L', 'P'] => some '('
  | ['R', 'P'] => some ')'
  | ['C'] => some ','
  | 'u' :: digits => numbered? digits
  | _ => none

theorem length_of_dropWhile_eq_cons {p : Char → Bool} {text after : List Char} {c : Char}
    (shape : text.dropWhile p = c :: after) : after.length < text.length := by
  have := (List.dropWhile_suffix p (l := text)).length_le
  rw [shape, List.length_cons] at this
  omega

/-- A part with its escapes replaced. Nothing is replaced from an unknown escape on. -/
def unescape (part : List Char) : List Char :=
  match part with
  | [] => []
  | '.' :: '.' :: rest => ':' :: ':' :: unescape rest
  | '$' :: rest =>
    match found : rest.dropWhile (· ≠ '$') with
    | [] => '$' :: rest
    | _ :: after =>
      have := length_of_dropWhile_eq_cons found
      match escape? (rest.takeWhile (· ≠ '$')) with
      | some c => c :: unescape after
      | none => '$' :: rest
  | c :: rest => c :: unescape rest
termination_by part.length
decreasing_by all_goals simp only [List.length_cons]; omega

/-- An underscore in front of an escape only keeps the part an identifier, and is not shown. -/
def showPart : List Char → List Char
  | '_' :: '$' :: rest => unescape ('$' :: rest)
  | part => unescape part

/-- The parts of a path without a hash at their end. -/
def withoutHash (parts : List (List Char)) : List (List Char) :=
  if parts.getLast?.any isHash then parts.dropLast else parts

/-- The path that a name stands for, and what follows it. -/
def demangle? (name : List Char) : Option (String × List Char) :=
  (body? name).bind fun body =>
    if body.all (·.toNat < 0x80) then
      (parts? body).map fun (parts, rest) =>
        ("::".intercalate ((withoutHash parts).map fun part => String.ofList (showPart part)), rest)
    else none

end ElfLens.Mangling.Legacy
