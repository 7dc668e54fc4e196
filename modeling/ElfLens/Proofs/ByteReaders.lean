import ElfLens.Memory.Files
import ElfLens.Proofs.MappedSpace

set_option autoImplicit false

namespace ElfLens

section Readers

variable {files : Files} {limits : Limits} {path : String} {content : Bytes}
  {offset length : UInt64}

/-- A range that the limit allows is fetched exactly if the file has all of it. -/
theorem Files.fetch_eq_ite (found : files path = some content)
    (small : content.size < UInt64.size) (allowed : length ≤ limits.fetchBytes) :
    files.fetch limits path offset length =
      if offset.toNat + length.toNat ≤ content.size then
        .ok (content.extract offset.toNat (offset.toNat + length.toNat))
      else .error (.fileRead path offset.toNat length.toNat) := by
  by_cases inside : offset.toNat + length.toNat ≤ content.size
  · rw [if_pos inside, fetch_eq_ok_iff]
    exact ⟨content, found, Bytes.slice?_eq_some_iff.mpr ⟨inside, rfl⟩, allowed, by omega⟩
  · rw [if_neg inside, fetch, found, Option.bind_some, Bytes.slice?, if_neg inside]

/-- A range of placed bytes is read exactly if it lies inside them. -/
theorem Memory.read_ofBytes_eq_ite {base address : UInt64}
    (place : address.toNat = base.toNat + offset.toNat) :
    (ofBytes base content).read address length =
      if offset.toNat + length.toNat ≤ content.size then
        .ok (content.extract offset.toNat (offset.toNat + length.toNat))
      else .error (.memoryRead address.toNat length.toNat) := by
  rw [read_ofBytes place, Bytes.slice?]
  by_cases inside : offset.toNat + length.toNat ≤ content.size
  · rw [if_pos inside, if_pos inside]
  · rw [if_neg inside, if_neg inside]

/-- A range of a file is read exactly if it lies inside the file and the file is not empty. -/
theorem Memory.read_ofFile_eq_ite (content : Bytes) (offset length : UInt64) :
    (ofFile content).read offset length =
      if offset.toNat + length.toNat ≤ content.size ∧ content ≠ #[] then
        .ok (content.extract offset.toNat (offset.toNat + length.toNat))
      else .error (.memoryRead offset.toNat length.toNat) := by
  by_cases empty : content = #[]
  · rw [if_neg fun both => both.2 empty, empty]
    rfl
  · rw [read_ofFile empty, Bytes.slice?]
    simp only [ne_eq, empty, not_false_eq_true, and_true]
    by_cases inside : offset.toNat + length.toNat ≤ content.size
    · rw [if_pos inside, if_pos inside]
    · rw [if_neg inside, if_neg inside]

/-- Fetched from a file, read of that file as memory, or read of its bytes at any address, a range
is given whole if it lies inside the file and refused if it does not, however close its numbers come
to the largest word. The readers differ in one case alone: the range of no bytes at the start of an
empty file, which only the file read as memory refuses. -/
theorem Files.readers_agree (found : files path = some content)
    (small : content.size < UInt64.size) (allowed : length ≤ limits.fetchBytes) :
    let fetched := files.fetch limits path offset length
    let mapped := (Memory.ofFile content).read offset length
    let placed := fun base address => (Memory.ofBytes base content).read address length
    let inside := offset.toNat + length.toNat ≤ content.size
    let range := content.extract offset.toNat (offset.toNat + length.toNat)
    (inside → range.size = length.toNat ∧ fetched = .ok range ∧
      (content ≠ #[] → mapped = .ok range) ∧
      ∀ base address, address.toNat = base.toNat + offset.toNat →
        placed base address = .ok range) ∧
    (¬ inside → fetched = .error (.fileRead path offset.toNat length.toNat) ∧
      mapped = .error (.memoryRead offset.toNat length.toNat) ∧
      ∀ base address, address.toNat = base.toNat + offset.toNat →
        placed base address = .error (.memoryRead address.toNat length.toNat)) ∧
    (content = #[] → mapped = .error (.memoryRead offset.toNat length.toNat)) ∧
    (mapped.toOption = fetched.toOption ↔ ¬ (content = #[] ∧ offset = 0 ∧ length = 0)) := by
  intro fetched mapped placed inside range
  have fetch : fetched = if inside then .ok range else .error (.fileRead path _ _) :=
    fetch_eq_ite found small allowed
  have map : mapped = if inside ∧ content ≠ #[] then .ok range else .error (.memoryRead _ _) :=
    Memory.read_ofFile_eq_ite content offset length
  have place : ∀ base address, address.toNat = base.toNat + offset.toNat →
      placed base address = if inside then .ok range else .error (.memoryRead _ _) :=
    fun _ _ => Memory.read_ofBytes_eq_ite
  refine ⟨?_, ?_, ?_, ?_⟩
  · intro holds
    refine ⟨?_, fetch.trans (if_pos holds), fun filled => map.trans (if_pos ⟨holds, filled⟩), ?_⟩
    · rw [Array.size_extract]
      omega
    · intro base address sum
      exact (place base address sum).trans (if_pos holds)
  · intro fails
    refine ⟨fetch.trans (if_neg fails), map.trans (if_neg fun both => fails both.1), ?_⟩
    intro base address sum
    exact (place base address sum).trans (if_neg fails)
  · intro empty
    exact map.trans (if_neg fun both => both.2 empty)
  · rw [map, fetch]
    by_cases empty : content = #[]
    · -- Of an empty file only the range of no bytes at its start lies inside.
      have start : inside ↔ offset = 0 ∧ length = 0 := by
        change offset.toNat + length.toNat ≤ content.size ↔ _
        rw [empty, List.size_toArray, List.length_nil, Nat.le_zero, Nat.add_eq_zero_iff,
          ← UInt64.toNat_inj, ← UInt64.toNat_inj, UInt64.toNat_zero]
      rw [if_neg fun both => both.2 empty, ← start]
      by_cases holds : inside
      · simp [holds, empty, Except.toOption]
      · simp [holds, Except.toOption]
    · by_cases holds : inside
      · simp [holds, empty]
      · simp [holds, empty, Except.toOption]

end Readers

/-- The digits in a file of ten bytes, of which the last three are read, also where they end at the
last address there is. -/
theorem Files.readers_agree_at_end :
    let digits : Bytes := #[0x30, 0x31, 0x32, 0x33, 0x34, 0x35, 0x36, 0x37, 0x38, 0x39]
    let files : Files := fun path => if path = "digits" then some digits else none
    files "digits" = some digits ∧ digits.size < UInt64.size ∧
      (3 : UInt64) ≤ ({} : Limits).fetchBytes ∧
      files.fetch {} "digits" 7 3 = .ok #[0x37, 0x38, 0x39] ∧
      (Memory.ofFile digits).read 7 3 = .ok #[0x37, 0x38, 0x39] ∧
      (Memory.ofBytes 0xfffffffffffffff5 digits).read 0xfffffffffffffffc 3 =
        .ok #[0x37, 0x38, 0x39] ∧
      files.fetch {} "digits" 0xffffffffffffffff 3 =
        .error (.fileRead "digits" 0xffffffffffffffff 3) := by
  intro digits files
  have found : files "digits" = some digits := rfl
  have small : digits.size < UInt64.size := by decide
  have allowed : (3 : UInt64) ≤ ({} : Limits).fetchBytes := by decide
  obtain ⟨whole, -⟩ := @readers_agree files {} "digits" digits 7 3 found small allowed
  obtain ⟨-, refused, -⟩ :=
    @readers_agree files {} "digits" digits 0xffffffffffffffff 3 found small allowed
  obtain ⟨-, fetched, mapped, placed⟩ := whole (by decide)
  refine ⟨found, small, allowed, fetched, mapped (by decide), ?_, (refused (by decide)).1⟩
  exact placed 0xfffffffffffffff5 0xfffffffffffffffc (by decide)

/-- An empty file has the range of no bytes at its start, and it is fetched, and read of the bytes
themselves, but not of the file read as memory. -/
theorem Files.readers_differ_on_empty :
    let files : Files := fun path => if path = "empty" then some #[] else none
    files.fetch {} "empty" 0 0 = .ok #[] ∧ (Memory.ofBytes 0 #[]).read 0 0 = .ok #[] ∧
      (Memory.ofFile #[]).read 0 0 = .error (.memoryRead 0 0) := by
  refine ⟨rfl, ?_, rfl⟩
  exact @Memory.read_ofBytes_eq_ite #[] 0 0 0 0 rfl

end ElfLens
