set_option autoImplicit false

namespace ElfLens.Mangling.Itanium

structure Qualifiers where
  isConst : Bool
  isVolatile : Bool
  isRestrict : Bool
  deriving DecidableEq, Repr

def Qualifiers.none : Qualifiers := ⟨false, false, false⟩

/-- What a reference may be bound to. -/
inductive Reference where
  | lvalue
  | rvalue
  deriving DecidableEq, Repr

/-- Entities of the standard library that have abbreviations. -/
inductive Standard where
  | scope
  | allocator
  | basicString
  | string
  | istream
  | ostream
  | iostream
  deriving DecidableEq, Repr

/-- Objects that a compiler adds for an entity. -/
inductive Artifact where
  | virtualTable
  | tableOfTables
  | typeInfo
  | typeName
  | guard
  deriving DecidableEq, Repr

inductive Node where
  /-- An identifier of the source. -/
  | identifier (text : String)
  | standard (entity : Standard)
  /-- An operator by its symbol. -/
  | operatorSymbol (symbol : String)
  /-- The conversion to a type. -/
  | conversion (type : Node)
  /-- The operator of a literal suffix. -/
  | literalSuffix (text : String)
  | constructor
  | destructor
  /-- A closure by what it takes and by its number among the closures of its scope. -/
  | closure (parameters : List Node) (number : Nat)
  | unnamedType (number : Nat)
  /-- A name with a mark of its binary interface. -/
  | tagged (name : Node) (tag : String)
  | member (scope name : Node)
  /-- A template with its arguments. -/
  | specialized (template : Node) (arguments : List Node)
  /-- A member function for objects of some kinds only. -/
  | method (name : Node) (qualifiers : Qualifiers) (reference? : Option Reference)
  /-- An entity inside a function. -/
  | inside (function entity : Node)
  /-- A string literal of a function. -/
  | stringLiteral (function : Node)
  /-- A function with its types, the first of which is its result if it is a template. -/
  | signature (name : Node) (types : List Node)
  | artifact (kind : Artifact) (entity : Node)
  | builtin (name : String)
  /-- A parameter of the enclosing template. -/
  | parameter (index : Nat)
  | qualified (type : Node) (qualifiers : Qualifiers)
  | pointer (type : Node)
  | reference (kind : Reference) (type : Node)
  | memberPointer (owner type : Node)
  | array (length? : Option Nat) (element : Node)
  | function (result : Node) (parameters : List Node) (qualifiers : Qualifiers)
      (reference? : Option Reference)
  /-- A value of a type, by its spelling. -/
  | literal (type : Node) (spelling : List Char)
  /-- Several arguments in the place of one. -/
  | pack (items : List Node)

namespace Node

/-- The types say that nothing is taken. -/
def isVoidAlone : List Node → Bool
  | [.builtin name] => name = "void"
  | _ => false

def isTemplate : Node → Bool
  | specialized _ _ => true
  | method name _ _ => name.isTemplate
  | inside _ entity => entity.isTemplate
  | _ => false

/-- The name of a function without a result of its own: a constructor, a destructor or a
conversion. -/
def hasNoResult : Node → Bool
  | constructor | destructor | conversion _ => true
  | tagged name _ => name.hasNoResult
  | member _ name => name.hasNoResult
  | specialized template _ => template.hasNoResult
  | method name _ _ => name.hasNoResult
  | inside _ entity => entity.hasNoResult
  | _ => false

def isNested : Node → Bool
  | member _ _ | specialized _ _ => true
  | _ => false

end Node
end ElfLens.Mangling.Itanium
