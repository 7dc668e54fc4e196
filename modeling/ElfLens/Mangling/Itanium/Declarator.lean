import ElfLens.Mangling.Itanium.Node

set_option autoImplicit false

namespace ElfLens.Mangling.Itanium

def spaced (text : String) : String := if text.toList.getLast? = some ' ' then text else text ++ " "

namespace Qualifiers

def words (qualifiers : Qualifiers) : List String :=
  (if qualifiers.isConst then ["const"] else []) ++
  (if qualifiers.isVolatile then ["volatile"] else []) ++
  (if qualifiers.isRestrict then ["restrict"] else [])

def behind (qualifiers : Qualifiers) (text : String) : String :=
  qualifiers.words.foldl (fun text word => spaced text ++ word) text

end Qualifiers

namespace Reference

def mark : Reference → String
  | lvalue => "&"
  | rvalue => "&&"

/-- The reference to a reference: only two references to temporaries give another one. -/
def collapse : Reference → Reference → Reference
  | rvalue, rvalue => rvalue
  | _, _ => lvalue

def behind (reference? : Option Reference) (text : String) : String :=
  match reference? with
  | some reference => spaced text ++ reference.mark
  | none => text

end Reference

/-- How a type binds the place for a name. -/
inductive Shape where
  | plain
  | array
  | function
  deriving DecidableEq, Repr

/-- A type, or a name with what belongs behind its parameters. -/
structure Declarator where
  stem : String
  right : String
  shape : Shape
  /-- The reference that stands between the stem and the place for a name. -/
  reference? : Option Reference
  /-- The arguments of the template that is named here. -/
  arguments : List Declarator

namespace Declarator

def plain (text : String) : Declarator := ⟨text, "", .plain, none, []⟩

/-- The text left of the place for a name. -/
def left (declarator : Declarator) : String :=
  match declarator.reference? with
  | some reference => declarator.stem ++ reference.mark
  | none => declarator.stem

def text (declarator : Declarator) : String := declarator.left ++ declarator.right

/-- The place for a name inside parentheses, where an array or a function needs them. -/
def opened (declarator : Declarator) : Declarator :=
  match declarator.shape with
  | .plain => { declarator with stem := declarator.left, reference? := none }
  | .array => ⟨declarator.left ++ " (", ")" ++ declarator.right, .plain, none, []⟩
  | .function => ⟨declarator.left ++ "(", ")" ++ declarator.right, .plain, none, []⟩

/-- A text behind the place for a name, in the parentheses that it needs. -/
def append (declarator : Declarator) (text : String) : Declarator :=
  { declarator.opened with stem := declarator.opened.stem ++ text, arguments := [] }

def pointer (type : Declarator) : Declarator := type.append "*"

def reference (kind : Reference) (type : Declarator) : Declarator :=
  match type.reference? with
  | some inner => { type with reference? := some (kind.collapse inner) }
  | none => { type.opened with reference? := some kind, arguments := [] }

def memberPointer (owner : String) (type : Declarator) : Declarator :=
  match type.shape with
  | .plain => (plain (spaced type.left ++ owner ++ "::*"))
  | _ => type.append (owner ++ "::*")

def qualified (qualifiers : Qualifiers) (type : Declarator) : Declarator :=
  match type.shape with
  | .function => { type with right := qualifiers.behind type.right, arguments := [] }
  | _ => { type with stem := qualifiers.behind type.left, reference? := none, arguments := [] }

/-- An array of the type. The dimensions of an array of arrays follow each other. -/
def array (length? : Option Nat) (element : Declarator) : Declarator :=
  let dimension := " [" ++ (match length? with | some n => toString n | none => "") ++ "]"
  let right :=
    if element.shape = .array then dimension ++ String.ofList (element.right.toList.drop 1)
    else dimension ++ element.right
  ⟨element.left, right, .array, none, []⟩

def parameterList (parameters : List Declarator) : String :=
  "(" ++ ", ".intercalate (parameters.map text) ++ ")"

def function (result : Declarator) (parameters : String) : Declarator :=
  let left := if result.right.isEmpty then result.left ++ " " else result.left
  ⟨left, parameters ++ result.right, .function, none, []⟩

/-- The arguments of a template. Angles of one kind are kept apart by a space. -/
def argumentList (name : String) (arguments : List Declarator) : String :=
  let items := ", ".intercalate (arguments.map text)
  let opening := if name.toList.getLast? = some '<' then " <" else "<"
  let closing := if (opening ++ items).toList.getLast? = some '>' then " >" else ">"
  name ++ opening ++ items ++ closing

end Declarator
end ElfLens.Mangling.Itanium
