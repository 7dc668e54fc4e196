import ElfLens.Mangling.Itanium.Name
/-!
The constructs that can be nested in each other: names, types, arguments of templates and whole
symbols. Each level has its own readers, built on those of the level below it, so a symbol cannot
be nested deeper than the levels go.
-/

set_option autoImplicit false

namespace ElfLens.Mangling.Itanium

/-- The readers of what may still be nested. -/
structure Grammar where
  /-- A symbol without the mark in front. -/
  symbol : Reader Node
  name : Reader Node
  type : Reader Node
  /-- An argument of a template. -/
  argument : Reader Node

/-- The names of types that one letter stands for. -/
def builtinLetters : List (Char × String) := [
  ('v', "void"), ('w', "wchar_t"), ('b', "bool"), ('c', "char"), ('a', "signed char"),
  ('h', "unsigned char"), ('s', "short"), ('t', "unsigned short"), ('i', "int"),
  ('j', "unsigned int"), ('l', "long"), ('m', "unsigned long"), ('x', "long long"),
  ('y', "unsigned long long"), ('n', "__int128"), ('o', "unsigned __int128"), ('f', "float"),
  ('d', "double"), ('e', "long double"), ('g', "__float128"), ('z', "...")]

/-- The names of types that a letter behind a capital one stands for. -/
def moreBuiltinLetters : List (Char × String) := [
  ('d', "decimal64"), ('e', "decimal128"), ('f', "decimal32"), ('h', "half"), ('i', "char32_t"),
  ('s', "char16_t"), ('u', "char8_t"), ('a', "auto"), ('c', "decltype(auto)"),
  ('n', "std::nullptr_t")]

def typeArtifacts : List (Char × Artifact) := [
  ('V', .virtualTable), ('T', .tableOfTables), ('I', .typeInfo), ('S', .typeName)]

namespace Reader

/-- A type that is built in, which is not kept. -/
def builtin : Reader Node := do
  match ← next with
  | 'D' =>
    let some name := moreBuiltinLetters.lookup (← next) | failure
    return .builtin name
  | 'u' => return .builtin (← identifier)
  | c =>
    let some name := builtinLetters.lookup c | failure
    return .builtin name

/-- An operator that is not spelled with a code of its own. -/
def otherOperator (inner : Grammar) : Reader Node := do
  if ← accepts "cv" then return .conversion (← inner.type)
  expect "li"
  return .literalSuffix (← identifier)

/-- An identifier, which a mark shows to be known in its own file only. -/
def source : Reader Node := do
  if ← accepts "L" then
    let text ← identifier
    let _ ← optional discriminator
    return .identifier text
  else return .identifier (← identifier)

def unnamed (inner : Grammar) : Reader Node := do
  expect "U"
  if ← accepts "t" then return .unnamedType (← ordinal)
  expect "l"
  let parameters ← many1 inner.type
  expect "E"
  return .closure parameters (← ordinal)

def component (inner : Grammar) : Reader Node := do
  let name ← operatorSymbol <|> otherOperator inner <|> lifecycle <|> source <|> unnamed inner
  tags name

def arguments (inner : Grammar) : Reader (List Node) := do
  expect "I"
  let items ← many1 inner.argument
  expect "E"
  return items

/-- A component of a nested name is kept unless the name ends with it. -/
def keepInside (node : Node) : Reader Node := do
  if (← peek?) = some 'E' then return node else keep node

/-- The components of a nested name behind those read so far, as many as `fuel` at most. -/
def components (inner : Grammar) (scope? : Option Node) : (fuel : Nat) → Reader Node
  | 0 => failure
  | fuel + 1 => do
    match ← peek?, scope? with
    | some 'E', some scope => return scope
    | some 'S', _ => components inner (some (← substitution)) fuel
    | some 'T', _ => components inner (some (← keep (← parameter))) fuel
    | some 'I', some scope =>
      let node := .specialized scope (← arguments inner)
      components inner (some (← keepInside node)) fuel
    | _, none => components inner (some (← keepInside (← component inner))) fuel
    | _, some scope =>
      let node := .member scope (← component inner)
      let node ← if ← accepts "M" then keep node else keepInside node
      components inner (some node) fuel

/-- A name with scopes, and with the qualifiers of the objects that a member function is for. -/
def nestedName (inner : Grammar) : Reader Node := do
  expect "N"
  let qualifiers ← qualifiers
  let reference? ← reference?
  let name ← components inner none ((← get).rest.length + 1)
  expect "E"
  if ! name.isNested then failure
  if qualifiers = .none ∧ reference? = none then return name
  return .method name qualifiers reference?

/-- A name without scopes, or in the standard one. A template is kept without its arguments. -/
def plainName (inner : Grammar) : Reader Node := do
  let name ← inStandard <|> component inner
  if (← peek?) = some 'I' then
    let template ← keep name
    return .specialized template (← arguments inner)
  else return name
where
  /-- A name in the standard scope. -/
  inStandard : Reader Node := do
    expect "St"
    return .member (.standard .scope) (← component inner)

/-- A template that a reference names, with its arguments. -/
def specializedPart (inner : Grammar) : Reader Node := do
  let template ← substitution
  return .specialized template (← arguments inner)

def localName (inner : Grammar) : Reader Node := do
  expect "Z"
  let function ← inner.symbol
  expect "E"
  let node ← if ← accepts "s" then pure (Node.stringLiteral function)
    else Node.inside function <$> inner.name
  let _ ← optional discriminator
  return node

def name (inner : Grammar) : Reader Node :=
  nestedName inner <|> plainName inner <|> specializedPart inner <|> localName inner

def functionType (inner : Grammar) : Reader Node := do
  let qualifiers ← qualifiers
  expect "F"
  let _ ← accepts "Y"
  let types ← many1 inner.type
  let reference? ← reference?
  expect "E"
  match types with
  | [] => failure
  | result :: parameters => return .function result parameters qualifiers reference?

/-- An array type, whose length may be missing. -/
def arrayType (inner : Grammar) : Reader Node := do
  expect "A"
  let length? ← optional number
  expect "_"
  return .array length? (← inner.type)

/-- A type that is kept as a whole. -/
def compoundType (inner : Grammar) : Reader Node := name inner <|> functionType inner <|> do
  match ← peek? with
  | some 'A' => arrayType inner
  | some 'M' =>
    expect "M"
    let owner ← inner.type
    return .memberPointer owner (← inner.type)
  | some 'T' =>
    let template ← parameter
    if (← peek?) = some 'I' then
      let template ← keep template
      return .specialized template (← arguments inner)
    else return template
  | some 'P' =>
    expect "P"
    return .pointer (← inner.type)
  | some 'R' =>
    expect "R"
    return .reference .lvalue (← inner.type)
  | some 'O' =>
    expect "O"
    return .reference .rvalue (← inner.type)
  | _ =>
    let qualifiers ← qualifiers
    if qualifiers = .none then failure
    return .qualified (← inner.type) qualifiers

/-- A type. A reference stands for a whole type unless arguments follow it. -/
def type (inner : Grammar) : Reader Node := builtin <|> (do keep (← compoundType inner)) <|> do
  let part ← substitution
  if (← peek?) = some 'I' then failure else return part

def literal (inner : Grammar) : Reader Node := do
  expect "L"
  let type ← inner.type
  let spelling ← takeWhile (· ≠ 'E')
  expect "E"
  return if spelling.isEmpty then type else .literal type spelling

/-- An argument of a template: a value, a type, or several arguments in the place of one. -/
def argument (inner : Grammar) : Reader Node := literal inner <|> inner.type <|> do
  if ! (← accepts "J") then expect "I"
  let items ← many inner.argument
  expect "E"
  return .pack items

def artifact (inner : Grammar) : Reader Node := do
  if ← accepts "GV" then return .artifact .guard (← name inner)
  expect "T"
  let some kind := typeArtifacts.lookup (← next) | failure
  return .artifact kind (← inner.type)

/-- The symbol of an entity: a function has types behind its name. -/
def entity (inner : Grammar) : Reader Node := do
  let name ← name inner
  match ← many inner.type with
  | [] => return name
  | types => return .signature name types

/-- A symbol without the mark in front. -/
def symbol (inner : Grammar) : Reader Node := entity inner <|> artifact inner

end Reader

namespace Grammar

def bottom : Grammar := ⟨failure, failure, failure, failure⟩

def above (inner : Grammar) : Grammar where
  symbol := Reader.symbol inner
  name := Reader.name inner
  type := Reader.type inner
  argument := Reader.argument inner

def ofDepth : (depth : Nat) → Grammar
  | 0 => bottom
  | depth + 1 => above (ofDepth depth)

end Grammar
end ElfLens.Mangling.Itanium
