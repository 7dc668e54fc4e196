import ElfLens.Bytes.CString
import ElfLens.Proofs.Reading
import ElfLens.Word
/-!
Operations on 64-bit words and on byte strings as a machine carries them out, where a result that
there is no room for, or a byte that is not there, stops the program. Main statements: the reads of
a byte string that look before they slice are never stopped, and give what the exact reads give.
-/

set_option autoImplicit false

namespace ElfLens

/-- What stops a program in the middle of an operation. -/
inductive Trap where
  | overflow
  | underflow
  | zeroDivisor
  | outOfBounds
  deriving DecidableEq, Repr

/-- A computation that a trap may stop. -/
abbrev Trapping := Except Trap

namespace Trapping

def add (a b : UInt64) : Trapping UInt64 :=
  match Word.plus? a b with
  | some sum => .ok sum
  | none => .error .overflow

def sub (a b : UInt64) : Trapping UInt64 :=
  match Word.minus? a b with
  | some difference => .ok difference
  | none => .error .underflow

def mul (a b : UInt64) : Trapping UInt64 :=
  match Word.times? a b with
  | some product => .ok product
  | none => .error .overflow

def div (a b : UInt64) : Trapping UInt64 :=
  match Word.over? a b with
  | some quotient => .ok quotient
  | none => .error .zeroDivisor

def rem (a b : UInt32) : Trapping UInt32 :=
  if b = 0 then .error .zeroDivisor else .ok (a % b)

def byteAt (bytes : Bytes) (index : Nat) : Trapping UInt8 :=
  match bytes[index]? with
  | some byte => .ok byte
  | none => .error .outOfBounds

def slice (bytes : Bytes) (start stop : UInt64) : Trapping Bytes :=
  if start ≤ stop ∧ stop.toNat ≤ bytes.size then .ok (bytes.extract start.toNat stop.toNat)
  else .error .outOfBounds

theorem add_eq {a b sum : UInt64} (exact : sum.toNat = a.toNat + b.toNat) : add a b = .ok sum := by
  rw [add, Word.plus?_eq_some_iff.mpr exact]

theorem sub_eq {a b : UInt64} (ordered : b ≤ a) : sub a b = .ok (a - b) := by
  rw [sub, Word.minus?, if_pos ordered]

theorem mul_eq {a b product : UInt64} (exact : product.toNat = a.toNat * b.toNat) :
    mul a b = .ok product := by
  rw [mul, Word.times?_eq_some_iff.mpr exact]

theorem div_eq {a b quotient : UInt64} (nonzero : b ≠ 0)
    (exact : quotient.toNat = a.toNat / b.toNat) : div a b = .ok quotient := by
  rw [div, Word.over?_eq_some_iff.mpr ⟨nonzero, exact⟩]

theorem byteAt_eq {bytes : Bytes} {index : Nat} {byte : UInt8}
    (stands : bytes[index]? = some byte) : byteAt bytes index = .ok byte := by
  rw [byteAt, stands]

theorem slice_eq {bytes : Bytes} {start stop : UInt64} (ordered : start.toNat ≤ stop.toNat)
    (inside : stop.toNat ≤ bytes.size) :
    slice bytes start stop = .ok (bytes.extract start.toNat stop.toNat) :=
  if_pos ⟨UInt64.le_iff_toNat_le.mpr ordered, inside⟩

section Ranges

variable {bytes : Bytes}

def range (bytes : Bytes) (start length : UInt64) (fault : Fault) : Trapping (Except Fault Bytes) :=
  match (Word.plus? start length).filter (·.toNat ≤ bytes.size) with
  | none => return .error fault
  | some stop => return .ok (← slice bytes start stop)

def number (order : Endian) (width : UInt64) (bytes : Bytes) (offset : UInt64) :
    Trapping (Except Fault Nat) := do
  let part ← range bytes offset width (.truncatedTable offset.toNat width.toNat)
  return part.map fun part => order.value part.toList

def cstring (bytes : Bytes) (offset : UInt64) : Trapping (Except Fault Bytes) :=
  if bytes.size < offset.toNat then return .error (.badString offset.toNat)
  else do
    let rest := bytes.extract offset.toNat
    let stop := rest.toList.findIdx (· = 0)
    return .ok (← slice rest 0 stop.toUInt64)

theorem range_eq (held : bytes.size < UInt64.size) (start length : UInt64) (fault : Fault) :
    range bytes start length fault =
      .ok (match bytes.slice? start.toNat length.toNat with
        | some part => .ok part
        | none => .error fault) := by
  by_cases inside : start.toNat + length.toNat ≤ bytes.size
  · have fits : start.toNat + length.toNat < UInt64.size := Nat.lt_of_le_of_lt inside held
    have sum := Word.toNat_add_of_fits fits
    have whole : Word.plus? start length = some (start + length) :=
      Word.plus?_eq_some_iff.mpr sum
    have ordered : start.toNat ≤ (start + length).toNat := by
      rw [sum]
      exact Nat.le_add_right _ _
    have bounded : (start + length).toNat ≤ bytes.size := by rwa [sum]
    rw [range, whole, Option.filter_some, if_pos (decide_eq_true bounded), Bytes.slice?,
      if_pos inside]
    change slice bytes start (start + length) >>= _ = _
    rw [slice_eq ordered bounded, sum]
    rfl
  · have outside : (Word.plus? start length).filter (·.toNat ≤ bytes.size) = none := by
      apply Option.filter_eq_none_iff.mpr
      intro stop whole bounded
      have sum := Word.plus?_eq_some_iff.mp whole
      have := of_decide_eq_true bounded
      omega
    rw [range, outside, Bytes.slice?, if_neg inside]
    rfl

theorem number_eq (held : bytes.size < UInt64.size) (order : Endian) {width : UInt64}
    (positive : 0 < width.toNat) (offset : UInt64) :
    number order width bytes offset =
      .ok ((FieldReader.unsigned order width.toNat).decodeAt bytes offset.toNat) := by
  rw [number, range_eq held, FieldReader.decodeAt_unsigned order positive]
  cases bytes.slice? offset.toNat width.toNat <;> rfl

theorem cstring_eq (held : bytes.size < UInt64.size) (offset : UInt64) :
    cstring bytes offset = .ok (bytes.cstring offset.toNat) := by
  unfold cstring
  by_cases past : bytes.size < offset.toNat
  · rw [if_pos past, Bytes.cstring, Bytes.cstring?_eq_none_iff.mpr past]
    rfl
  · let rest := bytes.extract offset.toNat
    let stop := rest.toList.findIdx (· = 0)
    have within : stop ≤ rest.size := by
      rw [← Array.length_toList]
      exact List.findIdx_le_length
    have shorter : rest.size ≤ bytes.size := by
      rw [Array.size_extract]
      omega
    have word : stop.toUInt64.toNat = stop := UInt64.toNat_ofNat_of_lt' (by omega)
    have front : rest.extract 0 stop = rest.takeWhile (· ≠ 0) := by
      apply Array.toList_inj.mp
      rw [Bytes.toList_extract_front, Bytes.toList_takeWhile, List.takeWhile_eq_take_findIdx_not]
      simp only [stop, ne_eq, decide_not, Bool.not_not]
    rw [if_neg past, Bytes.cstring, Bytes.cstring?, if_pos (Nat.le_of_not_lt past)]
    change slice rest 0 stop.toUInt64 >>= _ = Except.ok (Except.ok (rest.takeWhile (· ≠ 0)))
    rw [slice_eq (Nat.zero_le _) (by rwa [word]), word, UInt64.toNat_zero, front]
    rfl

end Ranges

end Trapping
end ElfLens
