import ElfLens.Table

set_option autoImplicit false

namespace ElfLens

structure DynamicEntry where
  tag : Int64
  value : UInt64
  deriving DecidableEq

/- The tags that are looked at. -/
namespace DynamicTag

def null : Int64 := 0
def needed : Int64 := 1
def pltRelocationSize : Int64 := 2
def pltGot : Int64 := 3
def hash : Int64 := 4
def strings : Int64 := 5
def symbols : Int64 := 6
def rela : Int64 := 7
def relaSize : Int64 := 8
def relaStride : Int64 := 9
def stringsSize : Int64 := 10
def symbolStride : Int64 := 11
def soname : Int64 := 14
def rpath : Int64 := 15
def rel : Int64 := 17
def relSize : Int64 := 18
def relStride : Int64 := 19
def pltRelocationKind : Int64 := 20
def pltRelocations : Int64 := 23
def runpath : Int64 := 29
def flags : Int64 := 30

end DynamicTag

namespace DynamicEntry

def fields (layout : Layout) : FieldReader DynamicEntry := do
  let tag ← FieldReader.signedWord layout
  let value ← FieldReader.word layout
  return { tag, value }

/-- The bytes of one entry, as much of the tag and the value as the class has room for. -/
def encode (layout : Layout) (entry : DynamicEntry) : List UInt8 :=
  layout.spellSigned entry.tag ++ layout.spellWord entry.value

/-- The whole entries in front of the first null tag. -/
def decodeArray (layout : Layout) (bytes : Bytes) : List DynamicEntry :=
  match Table.make? bytes layout.dynamicSize layout with
  | .ok table =>
    ((List.range table.size).filterMap (table.decode? (fields layout))).takeWhile
      (·.tag ≠ DynamicTag.null)
  | .error _ => []

/-- The values that a tag carries, in order. -/
def valuesOf (tag : Int64) (entries : List DynamicEntry) : List UInt64 :=
  (entries.filter (·.tag = tag)).map (·.value)

def firstNonzero (values : List UInt64) : UInt64 := (values.find? (· ≠ 0)).getD 0

end DynamicEntry
end ElfLens
