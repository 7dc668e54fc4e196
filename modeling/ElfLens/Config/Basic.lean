import ElfLens.Word

set_option autoImplicit false

namespace ElfLens

/-- The sizes of a PLT stub and of a GOT slot. -/
structure PltShape where
  stubStride : UInt64 := 16
  pointerWidth : UInt64 := 4
  deriving DecidableEq, Repr

namespace PltShape

def x86 : PltShape := { stubStride := 16, pointerWidth := 4 }

def x86_64 : PltShape := { stubStride := 16, pointerWidth := 8 }

/-- The stub that belongs to a slot: as many stubs into the PLT as there are slots before it. -/
def stubAddress? (shape : PltShape) (slot gotBase pltBase : UInt64) : Option UInt64 := do
  let distance ← Word.minus? slot gotBase
  let index ← Word.over? distance shape.pointerWidth
  let offset ← Word.times? index shape.stubStride
  Word.plus? pltBase offset

end PltShape

/-- Which regions of a memory map are looked at. -/
structure RegionPolicy where
  /-- Only regions that can be executed are kept. -/
  executableOnly : Bool := true
  /-- Adjacent regions of one name are joined. -/
  coalesce : Bool := true
  deriving DecidableEq, Repr

/-- How much is read at once. -/
structure Limits where
  /-- The largest range fetched from a file. -/
  fetchBytes : UInt64 := 268435456
  /-- The largest table read from memory. -/
  tableBytes : UInt64 := 67108864
  deriving DecidableEq, Repr

structure Config where
  plt : PltShape := {}
  maps : RegionPolicy := {}
  io : Limits := {}
  deriving DecidableEq, Repr

end ElfLens
