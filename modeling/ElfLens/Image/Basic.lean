import ElfLens.Dynamic.Linkage
import ElfLens.Image.Sections

set_option autoImplicit false

namespace ElfLens

/-- One image and everything that was read of it. -/
structure Image where
  name : String
  path? : Option String
  space : AddressSpace
  header : FileHeader
  segments : List Segment
  sections : List Section
  linkage? : Option Linkage
  statics? : Option StaticSymbols
  plt : PltShape

namespace Image

def maxHeaderSize : UInt64 := 64

def readSegments (space : AddressSpace) (header : FileHeader) : Except Fault (List Segment) := do
  if header.segmentOffset = 0 ∨ header.segmentCount = 0 then return []
  let size := header.segmentTableSize
  if ¬ space.isResident header.segmentOffset size then return []
  let table ← space.readImage header.segmentOffset size
  Segment.decodeTable table header.segmentStride.toNat header.segmentCount.toNat header.layout

/-- What the dynamic segment says; in memory it is as long as the memory it takes up. -/
def readLinkage? (space : AddressSpace) (layout : Layout) (segments : List Segment) :
    Option Linkage := do
  let segment ← segments.find? (·.kind = .dynamic)
  let size := if space.isMapped then segment.memSize else segment.fileSize
  (Linkage.read space layout (space.normalize segment.vaddr) size).toOption

/-- Loads the image that a range of addresses holds. -/
def load (files : Files) (config : Config) (space : AddressSpace) (name : String)
    (path? : Option String) : Except Fault Image := do
  let head ← space.readImage 0 (min maxHeaderSize space.length)
  let header ← FileHeader.decode head
  let segments ← readSegments space header
  let space := space.withSegments segments
  let source : ImageSource := { space, files, path? }
  let (statics?, sections) := source.staticSymbols header.layout (source.sections header)
  return {
    name, path?, space, header, segments, sections, statics?
    linkage? := readLinkage? space header.layout segments
    plt := config.plt }

def ofMemory (files : Files) (config : Config) (memory : Memory) (base high : UInt64)
    (name : String) (path? : Option String) : Except Fault Image :=
  load files config (.mapped memory base high config.io) name path?

def anonymousName (base : UInt64) : String := "<memory@" ++ Text.hex base.toNat ++ ">"

/-- Loads an image from bytes that are placed at an address. -/
def ofBytes (files : Files) (config : Config) (bytes : Bytes) (base : UInt64)
    (path? : Option String) : Except Fault Image :=
  ofMemory files config (.ofBytes base bytes) base (Chunk.high ⟨base, bytes⟩)
    (path?.getD (anonymousName base)) path?

/-- Loads an image from a file, with the addresses it was linked for. -/
def ofFile (files : Files) (config : Config) (path : String) : Except Fault Image := do
  let content ← files.content path
  load files config (.file (.ofFile content) content.size.toUInt64 config.io) path (some path)

def source (image : Image) (files : Files) : ImageSource :=
  { space := image.space, files, path? := image.path? }

def contains (image : Image) (address : UInt64) : Bool :=
  image.space.base ≤ address ∧ address < image.space.high

def findSegment? (image : Image) (kind : SegmentKind) : Option Segment :=
  image.segments.find? (·.kind = kind)

def segmentsOf (image : Image) (kind : SegmentKind) : List Segment :=
  image.segments.filter (·.kind = kind)

def findSection? (image : Image) (name : String) : Option Section :=
  image.sections.find? (·.name = name)

def sectionsOf (image : Image) (kind : SectionKind) : List Section :=
  image.sections.filter (·.kind = kind)

def sectionAddress (image : Image) (sec : Section) : UInt64 := image.space.normalize sec.address

def sectionBytes (image : Image) (files : Files) (sec : Section) : Except Fault Bytes :=
  (image.source files).sectionBytes sec

/-- The section that holds the strings of the dynamic symbols. -/
def dynamicStrings? (image : Image) : Option Section := do
  let symbols ← image.sections.find? (·.kind = .dynSym)
  image.sections[symbols.link.toNat]?

/-- The program that has to load the image. -/
def interpreter? (image : Image) : Option String := do
  let segment ← image.findSegment? .interp
  let address := image.space.normalize segment.vaddr
  let bytes ← (image.space.readTable address segment.fileSize).toOption
  (bytes.ctext 0).toOption

def sectionBase (image : Image) (name : String) : UInt64 :=
  ((image.findSection? name).map image.sectionAddress).getD 0

def pltBase (image : Image) : UInt64 := image.sectionBase ".plt"

/-- The address of the GOT that belongs to the PLT, or zero: the dynamic array is asked first. -/
def gotBase (image : Image) : UInt64 :=
  let told := (image.linkage?.map (·.relocs.pltGot)).getD 0
  if told = 0 then image.sectionBase ".got.plt" else told

def stubAddress? (image : Image) (slot : UInt64) : Option UInt64 :=
  if image.pltBase = 0 ∨ image.gotBase = 0 then none
  else image.plt.stubAddress? slot image.gotBase image.pltBase

/-- The GOT slot of a name: the general relocations are asked first, then those of the PLT. -/
def gotAddress? (image : Image) (name : String) : Option UInt64 := do
  let linkage ← image.linkage?
  linkage.gotEntry? name <|> linkage.gotPltEntry? name

end Image
end ElfLens
