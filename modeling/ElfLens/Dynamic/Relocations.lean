import ElfLens.Dynamic.Symbols
import ElfLens.Relocation

set_option autoImplicit false

namespace ElfLens

/-- The relocation tables, as far as they are there. -/
structure DynamicRelocations where
  relaLocation : TableLocation
  rela? : Option RelocationTable
  relLocation : TableLocation
  rel? : Option RelocationTable
  pltLocation : TableLocation
  pltKind? : Option RelocationKind
  plt? : Option RelocationTable
  pltGot : UInt64

namespace DynamicRelocations

def readTable? (space : AddressSpace) (layout : Layout) (kind : RelocationKind)
    (location : TableLocation) : Option RelocationTable := do
  let bytes ← space.tableAt? location
  let table ← (Table.make? bytes location.stride.toNat layout).toOption
  return { table, kind }

def locate (space : AddressSpace) (layout : Layout) (entries : List DynamicEntry) :
    DynamicRelocations :=
  let address := fun tag => DynamicEntry.addressOf space.domain tag entries
  let size := fun tag => DynamicEntry.sizeOf tag entries
  let natural := fun (kind : RelocationKind) => layout.relocationSize kind.hasAddend
  let relaLocation : TableLocation :=
    { address := address DynamicTag.rela, byteSize := size DynamicTag.relaSize
      stride := DynamicSymbols.strideOr (size DynamicTag.relaStride) (natural .rela) }
  let relLocation : TableLocation :=
    { address := address DynamicTag.rel, byteSize := size DynamicTag.relSize
      stride := DynamicSymbols.strideOr (size DynamicTag.relStride) (natural .rel) }
  let pltKind? :=
    (DynamicEntry.valuesOf DynamicTag.pltRelocationKind entries).findSome? RelocationKind.ofTag?
  let pltLocation : TableLocation :=
    { address := address DynamicTag.pltRelocations
      byteSize := size DynamicTag.pltRelocationSize
      stride := (pltKind?.map fun kind => (natural kind).toUInt64).getD 0 }
  { relaLocation, relLocation, pltLocation, pltKind?
    rela? := readTable? space layout .rela relaLocation
    rel? := readTable? space layout .rel relLocation
    plt? := pltKind?.bind fun kind => readTable? space layout kind pltLocation
    pltGot := address DynamicTag.pltGot }

def tables (relocs : DynamicRelocations) : List RelocationTable :=
  [relocs.rela?, relocs.rel?, relocs.plt?].filterMap id

end DynamicRelocations
end ElfLens
