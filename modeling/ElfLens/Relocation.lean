import ElfLens.Search
import ElfLens.Table

set_option autoImplicit false

namespace ElfLens

/-- Whether relocations carry an addend of their own. -/
inductive RelocationKind where
  /-- The addend is what stands in the slot. -/
  | rel
  /-- The addend is a field of the relocation. -/
  | rela
  deriving DecidableEq, Repr

namespace RelocationKind

def hasAddend : RelocationKind → Bool
  | rel => false
  | rela => true

/-- The kind that the dynamic array names by the tag of its table. -/
def ofTag? (value : UInt64) : Option RelocationKind :=
  if value = 17 then some rel else if value = 7 then some rela else none

end RelocationKind

structure Relocation where
  offset : UInt64
  symbol : UInt32
  typeCode : UInt32
  addend : Int64
  deriving DecidableEq

namespace Relocation

/-- The number of low bits of the info field that hold the type. -/
def typeBits : Class → UInt64
  | .elf32 => 8
  | .elf64 => 32

/-- The info field: the symbol above the type. -/
def info (relocation : Relocation) (c : Class) : UInt64 :=
  (relocation.symbol.toUInt64 <<< typeBits c) ||| relocation.typeCode.toUInt64

def fields (layout : Layout) (kind : RelocationKind) : FieldReader Relocation := do
  let offset ← FieldReader.word layout
  let info ← FieldReader.word layout
  let addend ← if kind.hasAddend then FieldReader.signedWord layout else pure 0
  let shift := typeBits layout.wordClass
  return {
    offset, addend
    symbol := (info >>> shift).toUInt32
    typeCode := (info &&& ((1 <<< shift) - 1)).toUInt32 }

def encode (layout : Layout) (kind : RelocationKind) (relocation : Relocation) : List UInt8 :=
  layout.spellWord relocation.offset ++ layout.spellWord (relocation.info layout.wordClass) ++
    if kind.hasAddend then layout.spellSigned relocation.addend else []

/-- The slot, the symbol, the type and the addend are ones that the class and the kind have room
for. -/
def Fits (layout : Layout) (kind : RelocationKind) (relocation : Relocation) : Prop :=
  layout.Holds relocation.offset ∧
  relocation.typeCode.toUInt64 < 1 <<< typeBits layout.wordClass ∧
  layout.Holds (relocation.info layout.wordClass) ∧
  if kind.hasAddend then layout.HoldsSigned relocation.addend else relocation.addend = 0

end Relocation

structure RelocationTable where
  table : Table
  kind : RelocationKind

namespace RelocationTable

def relocations (relocs : RelocationTable) : List Relocation :=
  (List.range relocs.table.size).filterMap
    (relocs.table.decode? (Relocation.fields relocs.table.layout relocs.kind))

/-- Searches for the first relocation that has a symbol and whose symbol answers. -/
def search (relocs : RelocationTable) (carries : UInt32 → Bool) : Search Relocation :=
  Search.run (fun relocation => carries relocation.symbol)
    (relocs.relocations.filter (·.symbol ≠ 0))

/-- The slot, as stored, of the first relocation whose symbol answers. -/
def findSlot? (relocs : RelocationTable) (carries : UInt32 → Bool) : Option UInt64 :=
  (relocs.search carries).found.map (·.offset)

end RelocationTable
end ElfLens
