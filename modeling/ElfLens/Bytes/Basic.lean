set_option autoImplicit false

namespace ElfLens

abbrev Bytes := Array UInt8

namespace Bytes

/-- The `length` bytes from `start` on, when all of them are there. -/
def slice? (bytes : Bytes) (start length : Nat) : Option Bytes :=
  if start + length ≤ bytes.size then some (bytes.extract start (start + length)) else none

/-- The bytes of a text in UTF-8. -/
def ofText (text : String) : Bytes := text.toUTF8.data

/-- The text that the bytes spell in UTF-8, when they spell one. -/
def text? (bytes : Bytes) : Option String := String.fromUTF8? ⟨bytes⟩

theorem slice?_eq_some_iff {bytes part : Bytes} {start length : Nat} :
    bytes.slice? start length = some part ↔
      start + length ≤ bytes.size ∧ part = bytes.extract start (start + length) := by
  unfold slice?
  split
  · rename_i inside
    simp only [Option.some.injEq, inside, true_and]
    exact eq_comm
  · rename_i outside
    simp only [reduceCtorEq, outside, false_and]

theorem slice?_eq_none_iff {bytes : Bytes} {start length : Nat} :
    bytes.slice? start length = none ↔ bytes.size < start + length := by
  unfold slice?; split <;> simp <;> omega

theorem size_of_slice? {bytes part : Bytes} {start length : Nat}
    (success : bytes.slice? start length = some part) : part.size = length := by
  obtain ⟨inside, rfl⟩ := slice?_eq_some_iff.mp success
  rw [Array.size_extract]
  omega

/-- The part's byte at `i` is the string's byte at `start + i`. -/
theorem getElem?_of_slice? {bytes part : Bytes} {start length i : Nat}
    (success : bytes.slice? start length = some part) (inside : i < length) :
    part[i]? = bytes[start + i]? := by
  obtain ⟨bound, rfl⟩ := slice?_eq_some_iff.mp success
  rw [Array.getElem?_extract]
  split <;> first | rfl | omega

end Bytes
end ElfLens
