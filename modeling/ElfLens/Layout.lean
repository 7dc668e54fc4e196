import ElfLens.Bytes.Endian
import ElfLens.Fault

set_option autoImplicit false

namespace ElfLens

/-- How wide the addresses of an image are. -/
inductive Class where
  | elf32
  | elf64
  deriving DecidableEq, Repr

namespace Class

def ofCode? (code : UInt8) : Except Fault Class :=
  if code = 1 then .ok elf32
  else if code = 2 then .ok elf64
  else .error (.unsupportedClass code)

def code : Class → UInt8
  | elf32 => 1
  | elf64 => 2

def bits : Class → Nat
  | elf32 => 32
  | elf64 => 64

def wordSize : Class → Nat
  | elf32 => 4
  | elf64 => 8

theorem ofCode?_code (c : Class) : ofCode? c.code = .ok c := by cases c <;> rfl

theorem ofCode?_eq_ok_iff {b : UInt8} {c : Class} : ofCode? b = .ok c ↔ b = c.code := by
  unfold ofCode?
  split
  · cases c <;> simp_all [code]
  · split <;> cases c <;> simp_all [code]

end Class

namespace Endian

def ofCode? (code : UInt8) : Except Fault Endian :=
  if code = 1 then .ok little
  else if code = 2 then .ok big
  else .error (.unsupportedOrder code)

def code : Endian → UInt8
  | little => 1
  | big => 2

theorem ofCode?_code (order : Endian) : ofCode? order.code = .ok order := by cases order <;> rfl

theorem ofCode?_eq_ok_iff {b : UInt8} {order : Endian} :
    ofCode? b = .ok order ↔ b = order.code := by
  unfold ofCode?
  split
  · cases order <;> simp_all [code]
  · split <;> cases order <;> simp_all [code]

end Endian

/-- What every record of one image has in common. -/
structure Layout where
  wordClass : Class
  order : Endian
  deriving DecidableEq, Repr

namespace Layout

def wordSize (layout : Layout) : Nat := layout.wordClass.wordSize

/-- A word is one that the class has room for. -/
def Holds (layout : Layout) (word : UInt64) : Prop := word.toNat < Endian.capacity layout.wordSize

def HoldsSigned (layout : Layout) (word : Int64) : Prop :=
  match layout.wordClass with
  | .elf32 => Int32.minValue.toInt ≤ word.toInt ∧ word.toInt ≤ Int32.maxValue.toInt
  | .elf64 => True

/-- The bytes of a field as wide as an address, as much of it as the class has room for. -/
def spellWord (layout : Layout) (word : UInt64) : List UInt8 :=
  layout.order.spell layout.wordSize word.toNat

def spellSigned (layout : Layout) (word : Int64) : List UInt8 := layout.spellWord word.toUInt64

def headerSize (layout : Layout) : Nat :=
  match layout.wordClass with
  | .elf32 => 52
  | .elf64 => 64

def segmentSize (layout : Layout) : Nat :=
  match layout.wordClass with
  | .elf32 => 32
  | .elf64 => 56

def sectionSize (layout : Layout) : Nat :=
  match layout.wordClass with
  | .elf32 => 40
  | .elf64 => 64

def dynamicSize (layout : Layout) : Nat :=
  match layout.wordClass with
  | .elf32 => 8
  | .elf64 => 16

def symbolSize (layout : Layout) : Nat :=
  match layout.wordClass with
  | .elf32 => 16
  | .elf64 => 24

/-- The size of a relocation with or without an addend of its own. -/
def relocationSize (layout : Layout) (addend : Bool) : Nat :=
  match layout.wordClass, addend with
  | .elf32, false => 8
  | .elf32, true => 12
  | .elf64, false => 16
  | .elf64, true => 24

theorem segmentSize_pos (layout : Layout) : 0 < layout.segmentSize := by
  unfold segmentSize
  split <;> decide

theorem sectionSize_pos (layout : Layout) : 0 < layout.sectionSize := by
  unfold sectionSize
  split <;> decide

theorem dynamicSize_pos (layout : Layout) : 0 < layout.dynamicSize := by
  unfold dynamicSize
  split <;> decide

theorem symbolSize_pos (layout : Layout) : 0 < layout.symbolSize := by
  unfold symbolSize
  split <;> decide

theorem length_spellWord (layout : Layout) (word : UInt64) :
    (layout.spellWord word).length = layout.wordSize :=
  Endian.length_spell _ _ _

end Layout
end ElfLens
