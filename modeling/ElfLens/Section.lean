import ElfLens.Table

set_option autoImplicit false

namespace ElfLens

inductive SectionKind where
  | null
  | progBits
  | symTab
  | strTab
  | rela
  | hash
  | dynamic
  | note
  | noBits
  | rel
  | shlib
  | dynSym
  | gnuHash
  | other (code : UInt32)
  deriving DecidableEq, Repr

def SectionKind.ofCode (code : UInt32) : SectionKind :=
  match code.toNat with
  | 0 => null
  | 1 => progBits
  | 2 => symTab
  | 3 => strTab
  | 4 => rela
  | 5 => hash
  | 6 => dynamic
  | 7 => note
  | 8 => noBits
  | 9 => rel
  | 10 => shlib
  | 11 => dynSym
  | 0x6ffffff6 => gnuHash
  | _ => other code

structure SectionHeader where
  nameOffset : UInt32
  typeCode : UInt32
  flagBits : UInt64
  address : UInt64
  offset : UInt64
  byteSize : UInt64
  link : UInt32
  info : UInt32
  align : UInt64
  stride : UInt64
  deriving DecidableEq, Repr

namespace SectionHeader

def kind (header : SectionHeader) : SectionKind := .ofCode header.typeCode

/-- The bits with a known meaning among the bits of a flag field. -/
def attributeBits (flagBits : UInt64) : UInt64 := flagBits &&& 0x437

def attributes (header : SectionHeader) : UInt64 := attributeBits header.flagBits

def isWritable (header : SectionHeader) : Bool := header.flagBits &&& 1 ≠ 0

/-- The section takes up memory. -/
def isAllocated (header : SectionHeader) : Bool := header.flagBits &&& 2 ≠ 0

def isExecutable (header : SectionHeader) : Bool := header.flagBits &&& 4 ≠ 0

/-- The section takes up no bytes of the file. -/
def isNoBits (header : SectionHeader) : Bool := header.kind = .noBits

/-- The section is a symbol table, whose link names its strings. -/
def isSymbolTable (header : SectionHeader) : Bool :=
  header.kind = .symTab ∨ header.kind = .dynSym

/-- No bytes of the file belong to the section. -/
def isBlank (header : SectionHeader) : Bool := header.isNoBits ∨ header.byteSize = 0

def fields (layout : Layout) : FieldReader SectionHeader := do
  let nameOffset ← FieldReader.u32 layout.order
  let typeCode ← FieldReader.u32 layout.order
  let flagBits ← FieldReader.word layout
  let address ← FieldReader.word layout
  let offset ← FieldReader.word layout
  let byteSize ← FieldReader.word layout
  let link ← FieldReader.u32 layout.order
  let info ← FieldReader.u32 layout.order
  let align ← FieldReader.word layout
  let stride ← FieldReader.word layout
  return { nameOffset, typeCode, flagBits, address, offset, byteSize, link, info, align, stride }

def encode (layout : Layout) (header : SectionHeader) : List UInt8 :=
  let word := layout.spellWord
  let half := layout.order.spell32
  half header.nameOffset ++ half header.typeCode ++ word header.flagBits ++ word header.address ++
    word header.offset ++ word header.byteSize ++ half header.link ++ half header.info ++
    word header.align ++ word header.stride

/-- Every address and size of the section header is one that the class has room for. -/
def Fits (layout : Layout) (header : SectionHeader) : Prop :=
  ∀ field ∈ [header.flagBits, header.address, header.offset, header.byteSize, header.align,
    header.stride], layout.Holds field

def decodeTable (data : Bytes) (stride count : Nat) (layout : Layout) :
    Except Fault (List SectionHeader) := do
  (← Table.firstRecords data stride count layout).decodeAll fun _ => fields layout

end SectionHeader

/-- Where the bytes of a section come from. -/
inductive Residency where
  /-- They lie in the image and are read in place. -/
  | resident
  /-- They lie in the file and are fetched on each access. -/
  | fileBacked
  /-- They were fetched from the file while the image was loaded. -/
  | fetched (bytes : Bytes)
  /-- There are none. -/
  | empty
  deriving DecidableEq, Repr

/-- One section: its header, its place in the table, its name and where its bytes are. -/
structure Section extends SectionHeader where
  index : Nat
  name : String
  residency : Residency
  deriving DecidableEq, Repr

end ElfLens
