import ElfLens.Bytes.CString
import ElfLens.Table

set_option autoImplicit false

namespace ElfLens

inductive SymbolKind where
  | noType
  | object
  | function
  | sectionName
  | file
  | common
  | tls
  | gnuIndirect
  | other (code : UInt8)
  deriving DecidableEq, Repr

def SymbolKind.ofCode (code : UInt8) : SymbolKind :=
  match code.toNat with
  | 0 => noType
  | 1 => object
  | 2 => function
  | 3 => sectionName
  | 4 => file
  | 5 => common
  | 6 => tls
  | 10 => gnuIndirect
  | _ => other code

/-- How far a symbol is visible to the linker. -/
inductive SymbolBinding where
  | localOnly
  | global
  | weak
  | other (code : UInt8)
  deriving DecidableEq, Repr

def SymbolBinding.ofCode (code : UInt8) : SymbolBinding :=
  match code.toNat with
  | 0 => localOnly
  | 1 => global
  | 2 => weak
  | _ => other code

/-- Who may refer to a symbol once the image is loaded. -/
inductive SymbolVisibility where
  | defaultScope
  | internalScope
  | hiddenScope
  | protectedScope
  deriving DecidableEq, Repr

def SymbolVisibility.ofCode (code : UInt8) : SymbolVisibility :=
  match (code &&& 3).toNat with
  | 1 => internalScope
  | 2 => hiddenScope
  | 3 => protectedScope
  | _ => defaultScope

/- The section indexes that have a meaning of their own. -/
namespace SectionIndex

/-- The symbol is defined elsewhere. -/
def undefined : UInt16 := 0

/-- The first index that names no section. -/
def firstReserved : UInt16 := 0xff00

/-- The value of the symbol is not an address in the image. -/
def absolute : UInt16 := 0xfff1

/-- The symbol is not yet given a place, and its value is an alignment. -/
def common : UInt16 := 0xfff2

end SectionIndex

structure Symbol where
  index : Nat
  nameOffset : UInt32
  value : UInt64
  byteSize : UInt64
  info : UInt8
  other : UInt8
  sectionIndex : UInt16
  deriving DecidableEq, Repr

namespace Symbol

def bindingCode (symbol : Symbol) : UInt8 := symbol.info >>> 4

def typeCode (symbol : Symbol) : UInt8 := symbol.info &&& 0xf

def kind (symbol : Symbol) : SymbolKind := .ofCode symbol.typeCode

def binding (symbol : Symbol) : SymbolBinding := .ofCode symbol.bindingCode

def visibility (symbol : Symbol) : SymbolVisibility := .ofCode symbol.other

/-- The symbol is defined elsewhere. -/
def isUndefined (symbol : Symbol) : Bool := symbol.sectionIndex = SectionIndex.undefined

/-- The symbol is defined in a section of this image. -/
def isDefined (symbol : Symbol) : Bool :=
  symbol.sectionIndex ≠ SectionIndex.undefined ∧ symbol.sectionIndex < SectionIndex.firstReserved

def isFunction (symbol : Symbol) : Bool := symbol.kind = .function

def isData (symbol : Symbol) : Bool := symbol.kind = .object

def isGlobal (symbol : Symbol) : Bool := symbol.binding = .global

/-- The symbol gives way to a global one of its name. -/
def isWeak (symbol : Symbol) : Bool := symbol.binding = .weak

def fields (layout : Layout) (index : Nat) : FieldReader Symbol := do
  match layout.wordClass with
  | .elf32 =>
    let nameOffset ← FieldReader.u32 layout.order
    let value ← FieldReader.word layout
    let byteSize ← FieldReader.word layout
    let info ← FieldReader.u8
    let other ← FieldReader.u8
    let sectionIndex ← FieldReader.u16 layout.order
    return { index, nameOffset, value, byteSize, info, other, sectionIndex }
  | .elf64 =>
    let nameOffset ← FieldReader.u32 layout.order
    let info ← FieldReader.u8
    let other ← FieldReader.u8
    let sectionIndex ← FieldReader.u16 layout.order
    let value ← FieldReader.word layout
    let byteSize ← FieldReader.word layout
    return { index, nameOffset, value, byteSize, info, other, sectionIndex }

def encode (layout : Layout) (symbol : Symbol) : List UInt8 :=
  let word := layout.spellWord
  let kind := [symbol.info, symbol.other]
  let place := layout.order.spell16 symbol.sectionIndex
  match layout.wordClass with
  | .elf32 =>
    layout.order.spell32 symbol.nameOffset ++ word symbol.value ++ word symbol.byteSize ++ kind ++
      place
  | .elf64 =>
    layout.order.spell32 symbol.nameOffset ++ kind ++ place ++ word symbol.value ++
      word symbol.byteSize

/-- The value and the size of the symbol are ones that the class has room for. -/
def Fits (layout : Layout) (symbol : Symbol) : Prop :=
  layout.Holds symbol.value ∧ layout.Holds symbol.byteSize

theorem isDefined_iff {symbol : Symbol} :
    symbol.isDefined ↔ 0 < symbol.sectionIndex ∧ symbol.sectionIndex < 0xff00 := by
  rw [isDefined, decide_eq_true_eq, UInt16.pos_iff_ne_zero]
  rfl

theorem isUndefined_iff {symbol : Symbol} : symbol.isUndefined ↔ symbol.sectionIndex = 0 :=
  decide_eq_true_iff

theorem not_isUndefined_of_isDefined {symbol : Symbol} (defined : symbol.isDefined) :
    ¬ symbol.isUndefined :=
  fun undefined => (of_decide_eq_true defined).1 (of_decide_eq_true undefined)

/-- A symbol is neither defined nor undefined exactly if its section index is a reserved one. -/
theorem not_isDefined_and_not_isUndefined_iff {symbol : Symbol} :
    (¬ symbol.isDefined ∧ ¬ symbol.isUndefined) ↔ 0xff00 ≤ symbol.sectionIndex := by
  rw [isDefined_iff, isUndefined_iff, ← UInt16.toNat_inj, UInt16.lt_iff_toNat_lt,
    UInt16.lt_iff_toNat_lt, UInt16.le_iff_toNat_le, UInt16.toNat_zero]
  constructor
  · rintro ⟨outside, nonzero⟩
    omega
  · intro reserved
    have most : (0xff00 : UInt16).toNat = 0xff00 := rfl
    omega

end Symbol

/-- The symbol at an index of a table, when the table has it whole. -/
def Table.symbol? (table : Table) (index : Nat) : Option Symbol :=
  table.decode? (Symbol.fields table.layout index) index

/-- The link-time symbols of an image and their names. -/
structure StaticSymbols where
  table : Table
  strings : Bytes

namespace StaticSymbols

def symbols (statics : StaticSymbols) : List Symbol :=
  (List.range statics.table.size).filterMap statics.table.symbol?

def name (statics : StaticSymbols) (symbol : Symbol) : Except Fault String :=
  statics.strings.ctext symbol.nameOffset.toNat

/-- A symbol has a name and the name is this one. -/
def carries (statics : StaticSymbols) (name : Bytes) (symbol : Symbol) : Bool :=
  symbol.nameOffset ≠ 0 ∧ statics.strings.cstring? symbol.nameOffset.toNat = some name

def find? (statics : StaticSymbols) (name : String) : Option Symbol :=
  statics.symbols.find? (statics.carries (Bytes.ofText name))

end StaticSymbols
end ElfLens
