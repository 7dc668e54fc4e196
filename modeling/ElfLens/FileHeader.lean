import ElfLens.FieldReader

set_option autoImplicit false

namespace ElfLens

/-- What an image is for. -/
inductive ObjectType where
  | none
  | relocatable
  | executable
  | sharedObject
  | core
  | other (code : UInt16)
  deriving DecidableEq, Repr

def ObjectType.ofCode (code : UInt16) : ObjectType :=
  match code.toNat with
  | 0 => none
  | 1 => relocatable
  | 2 => executable
  | 3 => sharedObject
  | 4 => core
  | _ => other code

inductive Machine where
  | none
  | sparc
  | x86
  | mips
  | powerPC
  | powerPC64
  | s390
  | arm
  | x86_64
  | aarch64
  | riscV
  | other (code : UInt16)
  deriving DecidableEq, Repr

def Machine.ofCode (code : UInt16) : Machine :=
  match code.toNat with
  | 0 => none
  | 2 => sparc
  | 3 => x86
  | 8 => mips
  | 20 => powerPC
  | 21 => powerPC64
  | 22 => s390
  | 40 => arm
  | 62 => x86_64
  | 183 => aarch64
  | 243 => riscV
  | _ => other code

/-- What the identification bytes say. -/
structure Ident where
  wordClass : Class
  order : Endian
  version : UInt8
  abi : UInt8
  abiVersion : UInt8
  deriving DecidableEq, Repr

namespace Ident

/-- The bytes that every image starts with. -/
def signature : Bytes := #[0x7f, 0x45, 0x4c, 0x46]

def byteSize : Nat := 16

def isSigned (data : Bytes) : Bool := data.slice? 0 4 == some signature

def layout (ident : Ident) : Layout := ⟨ident.wordClass, ident.order⟩

def fields : FieldReader Ident := do
  let _ ← FieldReader.bytes 4
  let classCode ← FieldReader.u8
  let orderCode ← FieldReader.u8
  let version ← FieldReader.u8
  let abi ← FieldReader.u8
  let abiVersion ← FieldReader.u8
  let wordClass ← Class.ofCode? classCode
  let order ← Endian.ofCode? orderCode
  return { wordClass, order, version, abi, abiVersion }

/-- The identification of the image that the data starts. -/
def decode (data : Bytes) : Except Fault Ident := do
  if 4 ≤ data.size ∧ ¬ isSigned data then throw .notElf
  if data.size < byteSize then throw (.truncatedHeader byteSize data.size)
  fields.decode (data.extract 0 byteSize)

/-- The identification bytes; the seven that say nothing are zero. -/
def encode (ident : Ident) : List UInt8 :=
  signature.toList ++
    [ident.wordClass.code, ident.order.code, ident.version, ident.abi, ident.abiVersion] ++
    List.replicate 7 0

end Ident

structure FileHeader where
  ident : Ident
  typeCode : UInt16
  machineCode : UInt16
  version : UInt32
  entry : UInt64
  segmentOffset : UInt64
  sectionOffset : UInt64
  flags : UInt32
  headerSize : UInt16
  segmentStride : UInt16
  segmentCount : UInt16
  sectionStride : UInt16
  sectionCount : UInt16
  nameSection : UInt16
  deriving DecidableEq, Repr

namespace FileHeader

def layout (header : FileHeader) : Layout := header.ident.layout

def objectType (header : FileHeader) : ObjectType := .ofCode header.typeCode

def machine (header : FileHeader) : Machine := .ofCode header.machineCode

/-- The image can be loaded at any address. -/
def isSharedObject (header : FileHeader) : Bool := header.objectType = .sharedObject

/-- The image is a program linked at a fixed address. -/
def isExecutable (header : FileHeader) : Bool := header.objectType = .executable

def segmentTableSize (header : FileHeader) : UInt64 :=
  header.segmentStride.toUInt64 * header.segmentCount.toUInt64

def sectionTableSize (header : FileHeader) : UInt64 :=
  header.sectionStride.toUInt64 * header.sectionCount.toUInt64

def fields (ident : Ident) : FieldReader FileHeader := do
  let order := ident.order
  let typeCode ← FieldReader.u16 order
  let machineCode ← FieldReader.u16 order
  let version ← FieldReader.u32 order
  let entry ← FieldReader.word ident.layout
  let segmentOffset ← FieldReader.word ident.layout
  let sectionOffset ← FieldReader.word ident.layout
  let flags ← FieldReader.u32 order
  let headerSize ← FieldReader.u16 order
  let segmentStride ← FieldReader.u16 order
  let segmentCount ← FieldReader.u16 order
  let sectionStride ← FieldReader.u16 order
  let sectionCount ← FieldReader.u16 order
  let nameSection ← FieldReader.u16 order
  return {
    ident, typeCode, machineCode, version, entry, segmentOffset, sectionOffset, flags, headerSize,
    segmentStride, segmentCount, sectionStride, sectionCount, nameSection }

/-- The bytes of the header, those of the identification first. -/
def encode (header : FileHeader) : List UInt8 :=
  let word := header.layout.spellWord
  let half := header.ident.order.spell32
  let quarter := header.ident.order.spell16
  header.ident.encode ++ quarter header.typeCode ++ quarter header.machineCode ++
    half header.version ++ word header.entry ++ word header.segmentOffset ++
    word header.sectionOffset ++ half header.flags ++ quarter header.headerSize ++
    quarter header.segmentStride ++ quarter header.segmentCount ++ quarter header.sectionStride ++
    quarter header.sectionCount ++ quarter header.nameSection

/-- Every address and offset of the header is one that the class has room for. -/
def Fits (header : FileHeader) : Prop :=
  ∀ field ∈ [header.entry, header.segmentOffset, header.sectionOffset], header.layout.Holds field

/-- The first demand that the sizes in the header do not meet. -/
def defect? (header : FileHeader) : Option HeaderDefect :=
  let layout := header.layout
  if header.headerSize.toNat ≠ layout.headerSize then
    some (.headerSize layout.headerSize header.headerSize.toNat)
  else if 0 < header.segmentCount ∧ header.segmentStride.toNat < layout.segmentSize then
    some (.segmentStride layout.segmentSize header.segmentStride.toNat)
  else if 0 < header.sectionCount ∧ header.sectionStride.toNat < layout.sectionSize then
    some (.sectionStride layout.sectionSize header.sectionStride.toNat)
  else none

/-- The header of the image that the data starts. -/
def decode (data : Bytes) : Except Fault FileHeader := do
  let ident ← Ident.decode data
  let size := ident.layout.headerSize
  if data.size < size then throw (.truncatedHeader size data.size)
  let header ← (fields ident).decodeAt (data.extract 0 size) Ident.byteSize
  match header.defect? with
  | some defect => throw (.malformedHeader defect)
  | none => return header

end FileHeader
end ElfLens
