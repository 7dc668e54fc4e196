import ElfLens.FieldReader
import ElfLens.Word

set_option autoImplicit false

namespace ElfLens

/-- Records packed one after the other; bytes that do not fill a last record belong to none. -/
structure Table where
  bytes : Bytes
  stride : Nat
  layout : Layout
  stride_pos : 0 < stride

namespace Table

/-- A table over the bytes, unless its records would have no size. -/
def make? (bytes : Bytes) (stride : Nat) (layout : Layout) : Except Fault Table :=
  if stride_pos : 0 < stride then .ok { bytes, stride, layout, stride_pos }
  else .error (.malformedHeader .zeroStride)

def size (table : Table) : Nat := table.bytes.size / table.stride

def record? (table : Table) (index : Nat) : Option Bytes :=
  table.bytes.slice? (index * table.stride) table.stride

def records (table : Table) : List Bytes := (List.range table.size).filterMap table.record?

/-- Every record as a reader that knows its index decodes it, or the first fault met. -/
def decodeAll {α : Type} (table : Table) (reader : Nat → FieldReader α) :
    Except Fault (List α) :=
  table.records.zipIdx.mapM fun (record, index) => (reader index).decode record

/-- What a reader makes of the record at an index. -/
def decode? {α : Type} (table : Table) (reader : FieldReader α) (index : Nat) : Option α :=
  (table.record? index).bind fun record => (reader.decode record).toOption

/-- The first `count` records of a buffer, none of them incomplete. -/
def firstRecords (data : Bytes) (stride count : Nat) (layout : Layout) : Except Fault Table :=
  let needed := (Word.capped (stride * count)).toNat
  match data.slice? 0 needed with
  | none => .error (.truncatedTable 0 needed)
  | some bytes => make? bytes stride layout

theorem of_make? {bytes : Bytes} {stride : Nat} {layout : Layout} {table : Table}
    (made : make? bytes stride layout = .ok table) :
    table.bytes = bytes ∧ table.stride = stride ∧ table.layout = layout := by
  unfold make? at made
  split at made
  · cases made
    exact ⟨rfl, rfl, rfl⟩
  · cases made

theorem lt_size_iff {table : Table} {index : Nat} :
    index < table.size ↔ index * table.stride + table.stride ≤ table.bytes.size := by
  rw [size, Nat.lt_iff_add_one_le, Nat.le_div_iff_mul_le table.stride_pos, Nat.succ_mul]

theorem record?_isSome_iff {table : Table} {index : Nat} :
    (table.record? index).isSome ↔ index < table.size := by
  unfold record?
  rw [lt_size_iff, Bytes.slice?]
  split <;> simp_all

theorem size_of_record? {table : Table} {index : Nat} {record : Bytes}
    (success : table.record? index = some record) : record.size = table.stride :=
  Bytes.size_of_slice? success

end Table
end ElfLens
