import ElfLens.Config.Basic
import ElfLens.Memory.Source

set_option autoImplicit false

namespace ElfLens

/-- The content of every file there is, by path. -/
abbrev Files := String → Option Bytes

namespace Files

def content (files : Files) (path : String) : Except Fault Bytes :=
  match files path with
  | some bytes => .ok bytes
  | none => .error (.fileAccess "no such file")

def text (files : Files) (path : String) : Except Fault String := do
  match (← files.content path).text? with
  | some text => return text
  | none => throw (.fileAccess "not valid text")

/-- The bytes of a range of a file, none of it behind the end and no more than the limit. -/
def fetch (files : Files) (limits : Limits) (path : String) (offset length : UInt64) :
    Except Fault Bytes :=
  let range := (files path).bind (·.slice? offset.toNat length.toNat)
  match range with
  | some bytes =>
    if length ≤ limits.fetchBytes ∧ offset.toNat + length.toNat < UInt64.size then .ok bytes
    else .error (.fileRead path offset.toNat length.toNat)
  | none => .error (.fileRead path offset.toNat length.toNat)

theorem fetch_eq_ok_iff {files : Files} {limits : Limits} {path : String}
    {offset length : UInt64} {bytes : Bytes} :
    files.fetch limits path offset length = .ok bytes ↔
      ∃ content, files path = some content ∧
        content.slice? offset.toNat length.toNat = some bytes ∧
        length ≤ limits.fetchBytes ∧ offset.toNat + length.toNat < UInt64.size := by
  unfold fetch
  cases h : (files path).bind (·.slice? offset.toNat length.toNat) with
  | none =>
    simp only [reduceCtorEq, false_iff]
    rintro ⟨content, present, inside, -⟩
    simp [present, inside] at h
  | some part =>
    obtain ⟨content, present, inside⟩ := Option.bind_eq_some_iff.mp h
    have only : (∃ content, files path = some content ∧
        content.slice? offset.toNat length.toNat = some bytes ∧
        length ≤ limits.fetchBytes ∧ offset.toNat + length.toNat < UInt64.size) ↔
        part = bytes ∧ length ≤ limits.fetchBytes ∧ offset.toNat + length.toNat < UInt64.size := by
      constructor
      · rintro ⟨other, found, cut, allowed⟩
        obtain rfl : content = other := Option.some.inj (present.symm.trans found)
        exact ⟨Option.some.inj (inside.symm.trans cut), allowed⟩
      · rintro ⟨rfl, allowed⟩
        exact ⟨content, present, inside, allowed⟩
    rw [only]
    split
    · rename_i allowed
      exact ⟨fun same => ⟨Except.ok.inj same, allowed⟩, fun same => congrArg Except.ok same.1⟩
    · rename_i refused
      exact ⟨fun same => (nomatch same), fun same => absurd same.2 refused⟩

/-- Whatever keeps a range from being fetched, the fault tells the range and the file. -/
theorem eq_of_fetch_eq_error {files : Files} {limits : Limits} {path : String}
    {offset length : UInt64} {fault : Fault}
    (failed : files.fetch limits path offset length = .error fault) :
    fault = .fileRead path offset.toNat length.toNat := by
  unfold fetch at failed
  dsimp only at failed
  split at failed
  · split at failed
    · cases failed
    · exact (Except.error.inj failed).symm
  · exact (Except.error.inj failed).symm

end Files
end ElfLens
