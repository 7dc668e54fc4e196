import ElfLens.Dynamic.Relocations

set_option autoImplicit false

namespace ElfLens

/-- The dynamic array of an image and the tables that it locates. -/
structure Linkage where
  layout : Layout
  domain : AddressDomain
  address : UInt64
  byteSize : UInt64
  entries : List DynamicEntry
  symbols : DynamicSymbols
  relocs : DynamicRelocations

namespace Linkage

/-- What the entries and the image they belong to amount to. -/
def ofEntries (space : AddressSpace) (layout : Layout) (address byteSize : UInt64)
    (entries : List DynamicEntry) : Linkage :=
  { layout, address, byteSize, entries
    domain := space.domain
    symbols := DynamicSymbols.locate space layout entries
    relocs := DynamicRelocations.locate space layout entries }

/-- Reads the dynamic array and everything that it locates; only the array itself has to be
readable. -/
def read (space : AddressSpace) (layout : Layout) (address byteSize : UInt64) :
    Except Fault Linkage := do
  let bytes ← space.readTable address byteSize
  return ofEntries space layout address byteSize (DynamicEntry.decodeArray layout bytes)

def entry? (linkage : Linkage) (tag : Int64) : Option DynamicEntry :=
  linkage.entries.find? (·.tag = tag)

/-- The slot that the first relocation of a name fills in. -/
def slot? (linkage : Linkage) (table? : Option RelocationTable) (name : String) : Option UInt64 :=
  let bytes := Bytes.ofText name
  (table?.bind (·.findSlot? fun index => linkage.symbols.carries bytes index.toNat)).map
    linkage.domain.resolve

/-- The GOT slot of a name among the general relocations, those with addends first. -/
def gotEntry? (linkage : Linkage) (name : String) : Option UInt64 :=
  linkage.slot? linkage.relocs.rela? name <|> linkage.slot? linkage.relocs.rel? name

/-- The GOT slot of a name among the relocations of the PLT. -/
def gotPltEntry? (linkage : Linkage) (name : String) : Option UInt64 :=
  linkage.slot? linkage.relocs.plt? name

/-- The texts that the values of a tag lead to. -/
def texts (linkage : Linkage) (tag : Int64) : List String :=
  (DynamicEntry.valuesOf tag linkage.entries).filterMap fun value =>
    (linkage.symbols.stringAt value).toOption

def needed (linkage : Linkage) : List String := linkage.texts DynamicTag.needed

def soname? (linkage : Linkage) : Option String := (linkage.texts DynamicTag.soname).head?

/-- The older list of places where needed libraries are looked for. -/
def rpath? (linkage : Linkage) : Option String := (linkage.texts DynamicTag.rpath).head?

/-- The newer list of places where needed libraries are looked for. -/
def runpath? (linkage : Linkage) : Option String := (linkage.texts DynamicTag.runpath).head?

def flags? (linkage : Linkage) : Option UInt64 := (linkage.entry? DynamicTag.flags).map (·.value)

end Linkage
end ElfLens
