import ElfLens.AddressSpace
import ElfLens.Bytes.CString
import ElfLens.FileHeader
import ElfLens.Memory.Files
import ElfLens.Section
import ElfLens.Symbol

set_option autoImplicit false

namespace ElfLens

/-- What an image is read from: the range it lies in, the files, and which of them it came from. -/
structure ImageSource where
  space : AddressSpace
  files : Files
  path? : Option String

namespace ImageSource

def fetch (source : ImageSource) (offset length : UInt64) : Except Fault Bytes :=
  match source.path? with
  | none => .error (.fileRead "" offset.toNat length.toNat)
  | some path => source.files.fetch source.space.limits path offset length

/-- The bytes of a range of file offsets, read in place when the image has them. -/
def readRange (source : ImageSource) (offset length : UInt64) : Except Fault Bytes :=
  if source.space.isResident offset length then source.space.readImage offset length
  else source.fetch offset length

/-- Where the bytes of a section are to be found. -/
def residencyOf (source : ImageSource) (header : SectionHeader) : Residency :=
  if header.isBlank then .empty
  else if source.space.isResident header.offset header.byteSize then .resident
  else if source.path?.isSome then .fileBacked
  else .empty

def sectionBytes (source : ImageSource) (sec : Section) : Except Fault Bytes :=
  match sec.residency with
  | .empty => .ok #[]
  | .fetched bytes => .ok bytes
  | .resident => source.space.readImage sec.offset sec.byteSize
  | .fileBacked => source.fetch sec.offset sec.byteSize

/-- The section headers, or none if any of them cannot be read. -/
def sectionHeaders (source : ImageSource) (header : FileHeader) : List SectionHeader :=
  if header.sectionOffset = 0 ∨ header.sectionCount = 0 then []
  else
    let decoded := do
      let table ← source.readRange header.sectionOffset header.sectionTableSize
      SectionHeader.decodeTable table header.sectionStride.toNat header.sectionCount.toNat
        header.layout
    match decoded with
    | .ok headers => headers
    | .error _ => []

/-- The strings that hold the names of the sections. -/
def sectionNames? (source : ImageSource) (header : FileHeader) (headers : List SectionHeader) :
    Option Bytes :=
  match headers[header.nameSection.toNat]? with
  | none => none
  | some names =>
    if names.isBlank then none else (source.readRange names.offset names.byteSize).toOption

/-- The name at an offset, which is empty if there is none. -/
def nameIn (names? : Option Bytes) (offset : UInt32) : String :=
  ((names?.bind fun names => (names.ctext offset.toNat).toOption)).getD ""

def sections (source : ImageSource) (header : FileHeader) : List Section :=
  let headers := source.sectionHeaders header
  let names? := source.sectionNames? header headers
  headers.zipIdx.map fun (sectionHeader, index) =>
    { sectionHeader with
      index, name := nameIn names? sectionHeader.nameOffset
      residency := source.residencyOf sectionHeader }

end ImageSource

namespace Section

/-- The section after an attempt to read it: a fetched copy is kept, and a failure leaves it
without bytes. -/
def settle (sec : Section) (outcome : Except Fault Bytes) : Section :=
  match outcome with
  | .error _ => { sec with residency := .empty }
  | .ok bytes =>
    if sec.residency = .fileBacked then { sec with residency := .fetched bytes } else sec

end Section

namespace ImageSource

/-- Reads a section for good: the bytes, and the sections with what came of it. -/
def keep (source : ImageSource) (sections : List Section) (index : Nat) :
    Option Bytes × List Section :=
  match sections[index]? with
  | none => (none, sections)
  | some sec =>
    let outcome := source.sectionBytes sec
    (outcome.toOption, sections.set index (sec.settle outcome))

/-- The link-time symbols, and the sections with what came of reading them. -/
def staticSymbols (source : ImageSource) (layout : Layout) (sections : List Section) :
    Option StaticSymbols × List Section :=
  match sections.find? (·.kind = .symTab) with
  | none => (none, sections)
  | some table =>
    if sections.length ≤ table.link.toNat then (none, sections)
    else
      match source.keep sections table.index with
      | (none, sections) => (none, sections)
      | (some symbols, sections) =>
        match source.keep sections table.link.toNat with
        | (none, sections) => (none, sections)
        | (some strings, sections) =>
          let stride := if table.stride = 0 then layout.symbolSize else table.stride.toNat
          match Table.make? symbols stride layout with
          | .error _ => (none, sections)
          | .ok table => (some { table, strings }, sections)

end ImageSource
end ElfLens
