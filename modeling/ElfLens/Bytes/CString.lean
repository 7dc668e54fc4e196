import ElfLens.Bytes.Basic
import ElfLens.Fault

set_option autoImplicit false

namespace ElfLens.Bytes

/-- The bytes from `offset` to the next zero or the end of the table, when `offset` is not past
the end. -/
def cstring? (table : Bytes) (offset : Nat) : Option Bytes :=
  if offset ≤ table.size then some ((table.extract offset).takeWhile (· ≠ 0)) else none

def cstring (table : Bytes) (offset : Nat) : Except Fault Bytes :=
  match table.cstring? offset with
  | some bytes => .ok bytes
  | none => .error (.badString offset)

def ctext (table : Bytes) (offset : Nat) : Except Fault String :=
  match (table.cstring? offset).bind text? with
  | some text => .ok text
  | none => .error (.badString offset)

/-- A table of strings: a zero, and then every string with a zero behind it. -/
def stringTable (names : List (List UInt8)) : List UInt8 := 0 :: names.flatMap (· ++ [0])

/-- Where the string at an index starts in the table of the strings. -/
def stringOffset (names : List (List UInt8)) (index : Nat) : Nat :=
  (stringTable (names.take index)).length

theorem cstring?_eq_none_iff {table : Bytes} {offset : Nat} :
    table.cstring? offset = none ↔ table.size < offset := by
  unfold cstring?; split <;> simp <;> omega

theorem toList_takeWhile (bytes : Bytes) (p : UInt8 → Bool) :
    (bytes.takeWhile p).toList = bytes.toList.takeWhile p := by
  obtain ⟨list⟩ := bytes
  simp

/-- The string is what stands in front of the next zero. -/
theorem cstring?_eq_some_iff {table string : Bytes} {offset : Nat} :
    table.cstring? offset = some string ↔
      offset ≤ table.size ∧ string.toList = (table.toList.drop offset).takeWhile (· ≠ 0) := by
  have front : ((table.extract offset).takeWhile (· ≠ 0)).toList =
      (table.toList.drop offset).takeWhile (· ≠ 0) := by
    have whole : (table.toList.drop offset).length ≤ table.size - offset := by simp
    rw [toList_takeWhile, Array.toList_extract, List.extract_eq_take_drop,
      List.take_of_length_le whole]
  unfold cstring?
  split
  · rename_i inside
    simp only [Option.some.injEq, inside, true_and, ← front, Array.toList_inj]
    exact eq_comm
  · rename_i outside
    simp [outside]

theorem cstring?_size (table : Bytes) : table.cstring? table.size = some #[] := by
  rw [cstring?_eq_some_iff]
  have past : table.toList.drop table.size = [] := List.drop_of_length_le (by simp)
  exact ⟨Nat.le_refl _, by rw [past]; rfl⟩

theorem cstring_eq_error_iff {table : Bytes} {offset : Nat} {fault : Fault} :
    table.cstring offset = .error fault ↔ table.size < offset ∧ fault = .badString offset := by
  unfold cstring
  cases found : table.cstring? offset with
  | none => simp [cstring?_eq_none_iff.mp found, eq_comm]
  | some bytes =>
    have : ¬ table.size < offset := fun past => by
      simp [cstring?_eq_none_iff.mpr past] at found
    simp [this]

end ElfLens.Bytes
