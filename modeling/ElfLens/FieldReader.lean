import ElfLens.Bytes.Basic
import ElfLens.Layout

set_option autoImplicit false

namespace ElfLens

/-- A range of offsets lies inside a table of the given length. -/
def Bytes.checkRange (offset length total : UInt64) : Except Fault Unit :=
  if offset.toNat + length.toNat ≤ total.toNat then .ok ()
  else .error (.truncatedTable offset.toNat length.toNat)

/-- What is left of a record, and how far into the record that is. -/
structure Cursor where
  offset : Nat
  rest : List UInt8
  deriving DecidableEq, Repr

/-- A computation that takes fields off the front of a record. -/
abbrev FieldReader := StateT Cursor (Except Fault)

namespace FieldReader

def bytes (width : Nat) : FieldReader (List UInt8) := fun cursor =>
  if width ≤ cursor.rest.length then
    .ok (cursor.rest.take width, ⟨cursor.offset + width, cursor.rest.drop width⟩)
  else
    .error (.truncatedTable cursor.offset width)

def unsigned (order : Endian) (width : Nat) : FieldReader Nat := do
  return order.value (← bytes width)

def u8 : FieldReader UInt8 := do
  return (← unsigned .little 1).toUInt8

def u16 (order : Endian) : FieldReader UInt16 := do
  return (← unsigned order 2).toUInt16

def u32 (order : Endian) : FieldReader UInt32 := do
  return (← unsigned order 4).toUInt32

def u64 (order : Endian) : FieldReader UInt64 := do
  return (← unsigned order 8).toUInt64

def i32 (order : Endian) : FieldReader Int32 := do
  return (← u32 order).toInt32

def i64 (order : Endian) : FieldReader Int64 := do
  return (← u64 order).toInt64

/-- The next field as wide as an address. -/
def word (layout : Layout) : FieldReader UInt64 := do
  match layout.wordClass with
  | .elf32 => return (← u32 layout.order).toUInt64
  | .elf64 => u64 layout.order

/-- The next signed field as wide as an address. -/
def signedWord (layout : Layout) : FieldReader Int64 := do
  match layout.wordClass with
  | .elf32 => return (← i32 layout.order).toInt64
  | .elf64 => i64 layout.order

/-- What a reader takes off the front of a whole record. -/
def decode {α : Type} (reader : FieldReader α) (record : Bytes) : Except Fault α :=
  reader.run' ⟨0, record.toList⟩

/-- What a reader takes off the bytes from `offset` on. -/
def decodeAt {α : Type} (reader : FieldReader α) (data : Bytes) (offset : Nat) : Except Fault α :=
  reader.run' ⟨offset, (data.extract offset).toList⟩

theorem bytes_append (front rest : List UInt8) (offset : Nat) :
    (bytes front.length).run ⟨offset, front ++ rest⟩ =
      .ok (front, ⟨offset + front.length, rest⟩) := by
  simp [bytes, StateT.run]

theorem bytes_of_short {cursor : Cursor} {width : Nat} (short : cursor.rest.length < width) :
    (bytes width).run cursor = .error (.truncatedTable cursor.offset width) := by
  simp [bytes, StateT.run, Nat.not_le.mpr short]

/-- A number reads back from the bytes that stand for it. -/
theorem unsigned_spell (order : Endian) {width n : Nat} (bound : n < Endian.capacity width)
    (rest : List UInt8) (offset : Nat) :
    (unsigned order width).run ⟨offset, order.spell width n ++ rest⟩ =
      .ok (n, ⟨offset + width, rest⟩) := by
  have front := bytes_append (order.spell width n) rest offset
  rw [Endian.length_spell] at front
  simp only [unsigned, StateT.run_bind, front]
  show Except.ok (order.value (order.spell width n), _) = _
  rw [Endian.value_spell_of_lt order bound]

theorem unsigned_of_short {cursor : Cursor} {order : Endian} {width : Nat}
    (short : cursor.rest.length < width) :
    (unsigned order width).run cursor = .error (.truncatedTable cursor.offset width) := by
  simp only [unsigned, StateT.run_bind, bytes_of_short short]
  rfl

theorem u8_spell (v : UInt8) (rest : List UInt8) (offset : Nat) :
    u8.run ⟨offset, v :: rest⟩ = .ok (v, ⟨offset + 1, rest⟩) := by
  have number := unsigned_spell .little (show v.toNat < Endian.capacity 1 from v.toNat_lt)
    rest offset
  have spelled : Endian.little.spell 1 v.toNat = [v] := by
    simp [Endian.spell, Endian.toDigits, Nat.toUInt8]
  rw [spelled] at number
  simp only [u8, StateT.run_bind]
  rw [List.singleton_append] at number
  rw [number]
  simp only [bind, Except.bind, Nat.toUInt8, UInt8.ofNat_toNat, StateT.run_pure]
  rfl

theorem u16_spell (order : Endian) (v : UInt16) (rest : List UInt8) (offset : Nat) :
    (u16 order).run ⟨offset, order.spell 2 v.toNat ++ rest⟩ = .ok (v, ⟨offset + 2, rest⟩) := by
  have number := unsigned_spell order (show v.toNat < Endian.capacity 2 from v.toNat_lt)
    rest offset
  simp only [u16, StateT.run_bind, number]
  simp only [bind, Except.bind, Nat.toUInt16, UInt16.ofNat_toNat, StateT.run_pure]
  rfl

theorem u32_spell (order : Endian) (v : UInt32) (rest : List UInt8) (offset : Nat) :
    (u32 order).run ⟨offset, order.spell 4 v.toNat ++ rest⟩ = .ok (v, ⟨offset + 4, rest⟩) := by
  have number := unsigned_spell order (show v.toNat < Endian.capacity 4 from v.toNat_lt)
    rest offset
  simp only [u32, StateT.run_bind, number]
  simp only [bind, Except.bind, Nat.toUInt32, UInt32.ofNat_toNat, StateT.run_pure]
  rfl

theorem u64_spell (order : Endian) (v : UInt64) (rest : List UInt8) (offset : Nat) :
    (u64 order).run ⟨offset, order.spell 8 v.toNat ++ rest⟩ = .ok (v, ⟨offset + 8, rest⟩) := by
  have number := unsigned_spell order (show v.toNat < Endian.capacity 8 from v.toNat_lt)
    rest offset
  simp only [u64, StateT.run_bind, number]
  simp only [bind, Except.bind, Nat.toUInt64, UInt64.ofNat_toNat, StateT.run_pure]
  rfl

theorem word_spellWord {layout : Layout} {w : UInt64} (held : layout.Holds w) (rest : List UInt8)
    (offset : Nat) :
    (word layout).run ⟨offset, layout.spellWord w ++ rest⟩ =
      .ok (w, ⟨offset + layout.wordSize, rest⟩) := by
  obtain ⟨wordClass, order⟩ := layout
  cases wordClass with
  | elf32 =>
    have small : w.toNat < 2 ^ 32 := held
    have narrow : w.toUInt32.toNat = w.toNat := by
      simp only [UInt64.toNat_toUInt32]
      omega
    have number := u32_spell order w.toUInt32 rest offset
    rw [narrow] at number
    simp only [word, Layout.spellWord, Layout.wordSize, Class.wordSize, StateT.run_bind, number]
    have wide : w.toUInt32.toUInt64 = w := by
      apply UInt64.toNat_inj.mp
      rw [UInt32.toNat_toUInt64, narrow]
    simp only [bind, Except.bind, wide, StateT.run_pure]
    rfl
  | elf64 => exact u64_spell order w rest offset

end FieldReader
end ElfLens
