import ElfLens.Table

set_option autoImplicit false

namespace ElfLens

inductive SegmentKind where
  | null
  | load
  | dynamic
  | interp
  | note
  | shlib
  | phdr
  | tls
  | gnuEhFrame
  | gnuStack
  | gnuRelro
  | other (code : UInt32)
  deriving DecidableEq, Repr

def SegmentKind.ofCode (code : UInt32) : SegmentKind :=
  match code.toNat with
  | 0 => null
  | 1 => load
  | 2 => dynamic
  | 3 => interp
  | 4 => note
  | 5 => shlib
  | 6 => phdr
  | 7 => tls
  | 0x6474e550 => gnuEhFrame
  | 0x6474e551 => gnuStack
  | 0x6474e552 => gnuRelro
  | _ => other code

/-- One program header and its place in the table. -/
structure Segment where
  index : Nat
  typeCode : UInt32
  flagBits : UInt32
  offset : UInt64
  vaddr : UInt64
  paddr : UInt64
  fileSize : UInt64
  memSize : UInt64
  align : UInt64
  deriving DecidableEq, Repr

namespace Segment

def kind (segment : Segment) : SegmentKind := .ofCode segment.typeCode

/-- The three access bits among the bits of a flag field. -/
def accessBits (flagBits : UInt32) : UInt32 := flagBits &&& 7

def access (segment : Segment) : UInt32 := accessBits segment.flagBits

def isExecutable (segment : Segment) : Bool := segment.flagBits &&& 1 ≠ 0

def isWritable (segment : Segment) : Bool := segment.flagBits &&& 2 ≠ 0

def isReadable (segment : Segment) : Bool := segment.flagBits &&& 4 ≠ 0

def isLoad (segment : Segment) : Bool := segment.kind = .load

/-- The segment occupies an address. -/
def containsVaddr (segment : Segment) (address : UInt64) : Bool :=
  segment.vaddr ≤ address ∧ address - segment.vaddr < segment.memSize

/-- The file offset of the byte that fills an address. -/
def fileOffset? (segment : Segment) (address : UInt64) : Option UInt64 :=
  (Word.minus? address segment.vaddr).bind fun distance =>
    if distance < segment.fileSize then Word.plus? segment.offset distance else none

/-- The file offset of a range of addresses, all of it filled from the file. -/
def rangeOffset? (segment : Segment) (address length : UInt64) : Option UInt64 := do
  let offset ← segment.fileOffset? address
  let distance ← Word.minus? address segment.vaddr
  let stop ← Word.plus? distance length
  if stop ≤ segment.fileSize then some offset else none

def fields (layout : Layout) (index : Nat) : FieldReader Segment := do
  match layout.wordClass with
  | .elf32 =>
    let typeCode ← FieldReader.u32 layout.order
    let offset ← FieldReader.word layout
    let vaddr ← FieldReader.word layout
    let paddr ← FieldReader.word layout
    let fileSize ← FieldReader.word layout
    let memSize ← FieldReader.word layout
    let flagBits ← FieldReader.u32 layout.order
    let align ← FieldReader.word layout
    return { index, typeCode, flagBits, offset, vaddr, paddr, fileSize, memSize, align }
  | .elf64 =>
    let typeCode ← FieldReader.u32 layout.order
    let flagBits ← FieldReader.u32 layout.order
    let offset ← FieldReader.word layout
    let vaddr ← FieldReader.word layout
    let paddr ← FieldReader.word layout
    let fileSize ← FieldReader.word layout
    let memSize ← FieldReader.word layout
    let align ← FieldReader.word layout
    return { index, typeCode, flagBits, offset, vaddr, paddr, fileSize, memSize, align }

def encode (layout : Layout) (segment : Segment) : List UInt8 :=
  let word := layout.spellWord
  let half := layout.order.spell32
  match layout.wordClass with
  | .elf32 =>
    half segment.typeCode ++ word segment.offset ++ word segment.vaddr ++ word segment.paddr ++
      word segment.fileSize ++ word segment.memSize ++ half segment.flagBits ++ word segment.align
  | .elf64 =>
    half segment.typeCode ++ half segment.flagBits ++ word segment.offset ++ word segment.vaddr ++
      word segment.paddr ++ word segment.fileSize ++ word segment.memSize ++ word segment.align

/-- Every address and size of the program header is one that the class has room for. -/
def Fits (layout : Layout) (segment : Segment) : Prop :=
  ∀ field ∈ [segment.offset, segment.vaddr, segment.paddr, segment.fileSize, segment.memSize,
    segment.align], layout.Holds field

def decodeTable (data : Bytes) (stride count : Nat) (layout : Layout) :
    Except Fault (List Segment) := do
  (← Table.firstRecords data stride count layout).decodeAll (fields layout)

end Segment
end ElfLens
