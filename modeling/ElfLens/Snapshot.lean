import ElfLens.Image.SymbolView
import ElfLens.Maps.Record

set_option autoImplicit false

namespace ElfLens

/-- The images of a process. -/
structure Snapshot where
  images : List Image

namespace Snapshot

def imageAt? (files : Files) (config : Config) (memory : Memory) (region : Region) :
    Option Image := do
  let head ← (memory.read region.start 4).toOption
  if Ident.isSigned head then
    (Image.ofMemory files config memory region.start region.stop region.name
      region.path?).toOption
  else none

def ofRegions (files : Files) (config : Config) (memory : Memory) (regions : List Region) :
    Snapshot :=
  ⟨regions.filterMap (imageAt? files config memory)⟩

/-- The images of the regions of a memory map that the configuration keeps. -/
def ofMaps (files : Files) (config : Config) (memory : Memory) (text : String) : Snapshot :=
  ofRegions files config memory (Region.retain config.maps (Region.parseAll text))

def get? (snapshot : Snapshot) (index : Nat) : Option Image := snapshot.images[index]?

def next? (snapshot : Snapshot) (index : Nat) : Option Image := snapshot.images[index + 1]?

def previous? (snapshot : Snapshot) : Nat → Option Image
  | 0 => none
  | index + 1 => snapshot.images[index]?

def containsText (needle : List Char) : List Char → Bool
  | [] => needle.isEmpty
  | c :: rest => needle.isPrefixOf (c :: rest) || containsText needle rest

/-- The first image with a text in its name. -/
def findNamed? (snapshot : Snapshot) (needle : String) : Option Image :=
  snapshot.images.find? fun image => containsText needle.toList image.name.toList

def findContaining? (snapshot : Snapshot) (address : UInt64) : Option Image :=
  snapshot.images.find? (·.contains address)

/-- The dynamic symbols of a name, one of each image that has one. -/
def symbols (snapshot : Snapshot) (name : String) : List SymbolView :=
  snapshot.images.filterMap (·.findDynamic? name)

/-- The symbols of a name that are defined where they are found. -/
def definitions (snapshot : Snapshot) (name : String) : List SymbolView :=
  (snapshot.symbols name).filter (·.symbol.isDefined)

/-- The symbols of a name that are defined elsewhere. -/
def uses (snapshot : Snapshot) (name : String) : List SymbolView :=
  (snapshot.symbols name).filter (·.symbol.isUndefined)

end Snapshot
end ElfLens
