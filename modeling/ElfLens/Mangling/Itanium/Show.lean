import ElfLens.Mangling.Itanium.Declarator

set_option autoImplicit false

namespace ElfLens.Mangling.Itanium

namespace Standard

def text : Standard → String
  | scope => "std"
  | allocator => "std::allocator"
  | basicString => "std::basic_string"
  | string => "std::string"
  | istream => "std::basic_istream<char, std::char_traits<char> >"
  | ostream => "std::ostream"
  | iostream => "std::basic_iostream<char, std::char_traits<char> >"

/-- The name that constructors of the entity repeat. -/
def ownName? : Standard → Option String
  | scope => none
  | allocator => some "allocator"
  | basicString => some "basic_string"
  | string => some "string"
  | istream => some "basic_istream"
  | ostream => some "basic_ostream"
  | iostream => some "basic_iostream"

end Standard

namespace Artifact

def text (entity : String) : Artifact → String
  | virtualTable => "\x7bvtable(" ++ entity ++ ")\x7d"
  | tableOfTables => "\x7bvtt(" ++ entity ++ ")\x7d"
  | typeInfo => "typeinfo for " ++ entity
  | typeName => "typeinfo name for " ++ entity
  | guard => "guard variable for " ++ entity

end Artifact

/-- An identifier as it is shown; those that a compiler makes up for a scope without a name are not
shown as they are. -/
def identifierText (text : String) : String :=
  if (["_GLOBAL__N", "_GLOBAL_.N", "_GLOBAL_$N"].any fun mark => mark.isPrefixOf text) then
    "(anonymous namespace)"
  else text

/-- What the values of a built-in type have behind them; those of other types have their type in
front. -/
def literalMark? : Node → Option String
  | .builtin name => [("int", ""), ("unsigned int", "u"), ("long", "l"), ("unsigned long", "ul"),
      ("long long", "ll"), ("unsigned long long", "ull")].lookup name
  | _ => none

/-- The spelling of a number; a letter stands for the minus sign. -/
def numberText : List Char → String
  | 'n' :: digits => "-" ++ String.ofList digits
  | digits => String.ofList digits

def truthText? (type : Node) (spelling : List Char) : Option String :=
  match type, spelling with
  | .builtin name, ['0'] => if name = "bool" then some "false" else none
  | .builtin name, ['1'] => if name = "bool" then some "true" else none
  | _, _ => none

def literalText (type : Node) (typeText : String) (spelling : List Char) : String :=
  match truthText? type spelling, literalMark? type with
  | some name, _ => name
  | none, some mark => numberText spelling ++ mark
  | none, none => "(" ++ typeText ++ ")" ++ numberText spelling

/-- What the text of a part depends on besides the part. -/
structure Surroundings where
  /-- The arguments of the enclosing templates, those of the innermost one first. -/
  arguments : List (List Declarator)
  /-- The name that a constructor repeats. -/
  owner? : Option String
  /-- The part is in the parameters of a closure, whose own parameters have no types. -/
  isInClosure : Bool
  /-- The result of a function is shown. -/
  showsResult : Bool

namespace Surroundings

def parameter? (surroundings : Surroundings) (index : Nat) : Option Declarator :=
  if surroundings.isInClosure then some (.plain ("auto:" ++ toString (index + 1)))
  else surroundings.arguments.findSome? (·[index]?)

end Surroundings

namespace Node

/-- The last name of a scope, which its constructors repeat. -/
def ownName? : Node → Option String
  | identifier text => some (identifierText text)
  | standard entity => entity.ownName?
  | tagged name _ => name.ownName?
  | member _ name => name.ownName?
  | specialized template _ => template.ownName?
  | method name _ _ => name.ownName?
  | inside _ entity => entity.ownName?
  | _ => none

mutual

def declarator? (around : Surroundings) : Node → Option Declarator
  | identifier text => some (.plain (identifierText text))
  | standard entity => some (.plain entity.text)
  | operatorSymbol symbol => some (.plain ("operator" ++ symbol))
  | conversion type => do
    return .plain ("operator " ++ (← type.declarator? around).text)
  | literalSuffix text => some (.plain ("operator \"\" " ++ text))
  | constructor => around.owner?.map .plain
  | destructor => around.owner?.map fun name => .plain ("~" ++ name)
  | closure parameters number => do
    let shown ← declarators? { around with isInClosure := true } parameters
    let items := if isVoidAlone parameters then [] else shown
    return .plain
      ("\x7blambda" ++ Declarator.parameterList items ++ "#" ++ toString number ++ "\x7d")
  | unnamedType number => some (.plain ("\x7bunnamed type#" ++ toString number ++ "\x7d"))
  | tagged name tag => do
    let shown ← name.declarator? around
    return { shown with stem := shown.stem ++ "[abi:" ++ tag ++ "]" }
  | member scope name => do
    let outer ← scope.declarator? { around with owner? := none }
    let shown ← name.declarator? { around with owner? := scope.ownName? }
    return { outer with stem := outer.text ++ "::" ++ shown.text, right := "", reference? := none }
  | specialized template arguments => do
    let items ← declarators? { around with owner? := none } arguments
    let shown ← template.declarator? around
    return { Declarator.plain (Declarator.argumentList shown.text items) with arguments := items }
  | method name qualifiers reference? => do
    let shown ← name.declarator? around
    return { shown with right := Reference.behind reference? (qualifiers.behind shown.right) }
  | inside place entity => do
    let outer ← place.declarator? { around with owner? := none, showsResult := false }
    let shown ← entity.declarator? around
    return { shown with stem := outer.text ++ "::" ++ shown.stem }
  | stringLiteral place => do
    let outer ← place.declarator? { around with owner? := none, showsResult := false }
    return .plain (outer.text ++ "::string literal")
  | signature name types => do
    let shown ← name.declarator? around
    let items ← declarators? {
      around with arguments := shown.arguments :: around.arguments, owner? := none } types
    let hasResult := name.isTemplate && ! name.hasNoResult
    let result :=
      match hasResult && around.showsResult, items with
      | true, result :: _ => result.text ++ " "
      | _, _ => ""
    let types := if hasResult then types.drop 1 else types
    let items := if hasResult then items.drop 1 else items
    let parameters := Declarator.parameterList (if isVoidAlone types then [] else items)
    return .plain (result ++ shown.left ++ parameters ++ shown.right)
  | artifact kind entity => do
    return .plain (kind.text (← entity.declarator? around).text)
  | builtin name => some (.plain name)
  | parameter index => around.parameter? index
  | qualified type qualifiers => (·.qualified qualifiers) <$> type.declarator? around
  | pointer type => (·.pointer) <$> type.declarator? around
  | reference kind type => (·.reference kind) <$> type.declarator? around
  | memberPointer owner type => do
    let scope ← owner.declarator? around
    return (← type.declarator? around).memberPointer scope.text
  | array length? element => (·.array length?) <$> element.declarator? around
  | function result parameters qualifiers reference? => do
    let shown ← result.declarator? around
    let items ← declarators? around parameters
    let list := Declarator.parameterList (if isVoidAlone parameters then [] else items)
    return shown.function (Reference.behind reference? (qualifiers.behind list))
  | literal type spelling => do
    return .plain (literalText type (← type.declarator? around).text spelling)
  | pack items => do
    return .plain (", ".intercalate ((← declarators? around items).map (·.text)))

def declarators? (around : Surroundings) : List Node → Option (List Declarator)
  | [] => some []
  | node :: rest => do return (← node.declarator? around) :: (← declarators? around rest)

end

def text? (node : Node) : Option String :=
  (node.declarator? ⟨[], none, false, true⟩).map (·.text)

end Node
end ElfLens.Mangling.Itanium
