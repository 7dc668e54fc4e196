import ElfLens.Bytes.Basic
import ElfLens.Fault
import ElfLens.Word

set_option autoImplicit false

namespace ElfLens

/-- What answers reads: the bytes of a whole range or a fault, never a part of it. -/
structure Memory where
  read : UInt64 → UInt64 → Except Fault Bytes
  size_of_read : ∀ {address length : UInt64} {bytes : Bytes},
    read address length = .ok bytes → bytes.size = length.toNat

structure Chunk where
  base : UInt64
  bytes : Bytes
  deriving DecidableEq

namespace Chunk

/-- The first address behind the chunk, or the largest address if there is none. -/
def high (chunk : Chunk) : UInt64 := Word.capped (chunk.base.toNat + chunk.bytes.size)

def read? (chunk : Chunk) (address length : UInt64) : Option Bytes :=
  (Word.minus? address chunk.base).bind fun start =>
    chunk.bytes.slice? start.toNat length.toNat

theorem read?_eq_some_iff {chunk : Chunk} {address length : UInt64} {bytes : Bytes} :
    chunk.read? address length = some bytes ↔
      ∃ start, address.toNat = chunk.base.toNat + start ∧
        chunk.bytes.slice? start length.toNat = some bytes := by
  simp only [read?, Option.bind_eq_some_iff, Word.minus?_eq_some_iff]
  constructor
  · rintro ⟨start, sum, success⟩
    exact ⟨start.toNat, sum, success⟩
  · rintro ⟨start, sum, success⟩
    have bound := address.toNat_lt
    have small : start.toUInt64.toNat = start := by
      simp only [Nat.toUInt64, UInt64.toNat_ofNat']
      omega
    exact ⟨start.toUInt64, by rw [small, sum], by rw [small]; exact success⟩

end Chunk

namespace Memory

/-- Memory made of chunks: the first one that has the whole range answers. -/
def ofChunks (chunks : List Chunk) : Memory where
  read address length :=
    match chunks.findSome? (·.read? address length) with
    | some bytes => .ok bytes
    | none => .error (.memoryRead address.toNat length.toNat)
  size_of_read {address length bytes} success := by
    split at success
    · rename_i found
      obtain ⟨chunk, -, answer⟩ := List.exists_of_findSome?_eq_some found
      obtain ⟨start, -, inside⟩ := Chunk.read?_eq_some_iff.mp answer
      injection success with same
      exact same ▸ Bytes.size_of_slice? inside
    · exact absurd success (by simp)

/-- Memory that holds some bytes at an address and nothing else. -/
def ofBytes (base : UInt64) (bytes : Bytes) : Memory := ofChunks [⟨base, bytes⟩]

/-- Memory that holds the content of a file from address zero on; an empty file answers no read. -/
def ofFile (content : Bytes) : Memory :=
  if content.isEmpty then ofChunks [] else ofBytes 0 content

end Memory
end ElfLens
