import ElfLens.Proofs.Packing
import ElfLens.Proofs.TableReading

set_option autoImplicit false

namespace ElfLens

open FieldReader

/-- Records one after the other, each filled up to the stride, in front of a tail that is too short
for another. -/
inductive LaidOut {α : Type} (encode : α → List UInt8) (stride : Nat) :
    List α → List UInt8 → Prop where
  | tail {rest : List UInt8} (short : rest.length < stride) : LaidOut encode stride [] rest
  | record {x : α} {xs : List α} {padding rest : List UInt8}
      (filled : (encode x).length + padding.length = stride) (laid : LaidOut encode stride xs rest) :
      LaidOut encode stride (x :: xs) (encode x ++ padding ++ rest)

namespace LaidOut

variable {α : Type} {encode : α → List UInt8} {stride : Nat} {xs : List α} {bytes : List UInt8}

theorem length_eq (laid : LaidOut encode stride xs bytes) :
    ∃ short < stride, bytes.length = stride * xs.length + short := by
  induction laid with
  | tail short => exact ⟨_, short, by simp⟩
  | record filled laid ih =>
      obtain ⟨short, few, length⟩ := ih
      refine ⟨short, few, ?_⟩
      rw [List.length_append, List.length_append, filled, length, List.length_cons, Nat.mul_succ]
      omega

/-- Every record stands at its place, and nothing but padding stands between them. -/
theorem exists_split (laid : LaidOut encode stride xs bytes) {index : Nat} {x : α}
    (stands : xs[index]? = some x) :
    ∃ front padding back, front.length = index * stride ∧
      (encode x ++ padding).length = stride ∧ bytes = front ++ (encode x ++ padding) ++ back := by
  induction laid generalizing index with
  | tail short => cases stands
  | @record first xs padding rest filled laid ih =>
      cases index with
      | zero =>
          obtain rfl : first = x := Option.some.inj stands
          refine ⟨[], padding, rest, by simp, ?_, by simp⟩
          rw [List.length_append, filled]
      | succ index =>
          obtain ⟨front, between, back, place, length, rfl⟩ := ih stands
          refine ⟨encode first ++ padding ++ front, between, back, ?_, length, ?_⟩
          · rw [List.length_append, List.length_append, filled, place, Nat.succ_mul, Nat.add_comm]
          · simp only [List.append_assoc]

theorem length_div (laid : LaidOut encode stride xs bytes) : bytes.length / stride = xs.length := by
  obtain ⟨short, few, length⟩ := laid.length_eq
  rw [length, Nat.mul_add_div (Nat.zero_lt_of_lt few), Nat.div_eq_of_lt few, Nat.add_zero]

theorem stride_pos (laid : LaidOut encode stride xs bytes) : 0 < stride := by
  obtain ⟨short, few, -⟩ := laid.length_eq
  exact Nat.zero_lt_of_lt few

/-- The front of the bytes has the first records, if it ends where a record does. -/
theorem take (laid : LaidOut encode stride xs bytes) {count : Nat}
    (whole : stride * count ≤ bytes.length) :
    LaidOut encode stride (xs.take count) (bytes.take (stride * count)) := by
  induction laid generalizing count with
  | @tail rest short =>
      rw [List.take_nil]
      apply LaidOut.tail
      rw [List.length_take]
      omega
  | @record x xs padding rest filled laid ih =>
      cases count with
      | zero => exact .tail laid.stride_pos
      | succ count =>
          have front : (encode x ++ padding).length = stride := by rw [List.length_append, filled]
          rw [List.length_append, front, Nat.mul_succ] at whole
          have parts : (encode x ++ padding ++ rest).take (stride * (count + 1)) =
              encode x ++ padding ++ rest.take (stride * count) := by
            rw [Nat.mul_succ, Nat.add_comm, ← front, List.take_length_add_append]
          rw [parts, List.take_succ_cons]
          exact .record filled (ih (by omega))

end LaidOut

/-- One type of record: how many bytes it takes, how they are written and read, which records the
class has room for, and how a record is marked with its place in a table. -/
structure RecordFormat (α : Type) where
  size : Layout → Nat
  encode : Layout → α → List UInt8
  fields : Layout → Nat → FieldReader α
  Fits : Layout → α → Prop
  place : Nat → α → α

/-- A record is read back from its bytes, which are exactly as many as it takes. -/
structure RecordFormat.IsLawful {α : Type} (format : RecordFormat α) : Prop where
  reads : ∀ layout index x, format.Fits layout x →
    (format.fields layout index).Reads (format.encode layout x) (format.place index x)
  exactly : ∀ layout index, (format.fields layout index).Exactly (format.size layout)

def Segment.format : RecordFormat Segment where
  size := Layout.segmentSize
  encode := Segment.encode
  fields := Segment.fields
  Fits := Segment.Fits
  place index segment := { segment with index }

def SectionHeader.format : RecordFormat SectionHeader where
  size := Layout.sectionSize
  encode := SectionHeader.encode
  fields layout _ := SectionHeader.fields layout
  Fits := SectionHeader.Fits
  place _ header := header

def Symbol.format : RecordFormat Symbol where
  size := Layout.symbolSize
  encode := Symbol.encode
  fields := Symbol.fields
  Fits layout symbol := symbol.Fits layout
  place index symbol := { symbol with index }

def Relocation.format (kind : RelocationKind) : RecordFormat Relocation where
  size layout := layout.relocationSize kind.hasAddend
  encode layout := Relocation.encode layout kind
  fields layout _ := Relocation.fields layout kind
  Fits layout := Relocation.Fits layout kind
  place _ relocation := relocation

theorem Segment.isLawful_format : format.IsLawful :=
  ⟨fun _ index _ fits => reads_fields fits index, exactly_fields⟩

theorem SectionHeader.isLawful_format : format.IsLawful :=
  ⟨fun _ _ _ fits => reads_fields fits, fun layout _ => exactly_fields layout⟩

theorem Symbol.isLawful_format : format.IsLawful :=
  ⟨fun _ index _ fits => reads_fields fits index, exactly_fields⟩

theorem Relocation.isLawful_format (kind : RelocationKind) : (format kind).IsLawful :=
  ⟨fun _ _ _ fits => reads_fields fits, fun layout _ => exactly_fields layout kind⟩

namespace RecordFormat

variable {α : Type}

/-- The two buffers have the same bytes, or none, all over the stride of an index. -/
def AgreeAt (index stride : Nat) (bytes other : Bytes) : Prop :=
  ∀ place, index * stride ≤ place → place < (index + 1) * stride → bytes[place]? = other[place]?

/-- A number of bytes that no buffer has, half of what a word can count. -/
def bufferLimit : Nat := 0x8000000000000000

/-- What is made of the first so many records of a buffer. -/
structure DecodesFirst (format : RecordFormat α)
    (decodeTable : Bytes → Nat → Nat → Layout → Except Fault (List α)) : Prop where
  inverts : ∀ (layout : Layout) (stride count : Nat) (xs : List α) (data : Bytes),
    format.size layout ≤ stride → (∀ x ∈ xs, format.Fits layout x) → data.size < bufferLimit →
    LaidOut (format.encode layout) stride xs data.toList →
    decodeTable data stride count layout =
      if stride * count ≤ data.size then .ok ((xs.take count).mapIdx format.place)
      else .error (.truncatedTable 0 (Word.capped (stride * count)).toNat)
  refuses : ∀ (layout : Layout) (stride count : Nat) (data : Bytes),
    0 < stride → stride < format.size layout → 0 < count →
    ∃ fault, decodeTable data stride count layout = .error fault
  isLocal : ∀ (layout : Layout) (stride count count' : Nat) (data data' : Bytes) (xs xs' : List α)
    (index : Nat), decodeTable data stride count layout = .ok xs →
    decodeTable data' stride count' layout = .ok xs' → index < xs.length → index < xs'.length →
    AgreeAt index stride data data' → xs[index]? = xs'[index]?

/-- What is made of all the records of a table, one by one and as a list. -/
structure DecodesAll (format : RecordFormat α) (entryAt : Table → Nat → Option α)
    (entries : Table → List α) : Prop where
  inverts : ∀ (table : Table) (xs : List α),
    format.size table.layout ≤ table.stride → (∀ x ∈ xs, format.Fits table.layout x) →
    LaidOut (format.encode table.layout) table.stride xs table.bytes.toList →
    entries table = xs.mapIdx format.place ∧
      ∀ index, entryAt table index = xs[index]?.map (format.place index)
  refuses : ∀ table : Table, table.stride < format.size table.layout →
    entries table = [] ∧ ∀ index, entryAt table index = none
  isLocal : ∀ (table other : Table) (index : Nat), table.stride = other.stride →
    table.layout = other.layout → AgreeAt index table.stride table.bytes other.bytes →
    entryAt table index = entryAt other index ∧ (entries table)[index]? = (entries other)[index]?

section Lawful

variable {format : RecordFormat α} {table : Table} {xs : List α}

/-- Every record that is laid out in a table is decoded at its place. -/
theorem IsLawful.decode?_eq (lawful : format.IsLawful)
    (fits : ∀ x ∈ xs, format.Fits table.layout x)
    (laid : LaidOut (format.encode table.layout) table.stride xs table.bytes.toList) (index : Nat) :
    table.decode? (format.fields table.layout index) index = xs[index]?.map (format.place index) := by
  cases stands : xs[index]? with
  | none =>
      have outside : ¬ index < table.size := by
        rw [Table.size, ← Array.length_toList, laid.length_div]
        exact Nat.not_lt.mpr (List.getElem?_eq_none_iff.mp stands)
      rw [← Table.record?_isSome_iff, Option.not_isSome_iff_eq_none] at outside
      rw [Table.decode?, outside]
      rfl
  | some x =>
      obtain ⟨front, padding, back, place, length, whole⟩ := laid.exists_split stands
      have found := Bytes.slice?_of_toList whole
      rw [place, length] at found
      have read := lawful.reads table.layout index x (fits x (List.mem_of_getElem? stands))
      rw [Option.map_some]
      exact Table.decode?_eq_some_iff.mpr ⟨_, found, FieldReader.decode_of_reads read rfl⟩

theorem size_of_laidOut
    (laid : LaidOut (format.encode table.layout) table.stride xs table.bytes.toList) :
    table.size = (xs.mapIdx format.place).length := by
  rw [Table.size, ← Array.length_toList, laid.length_div, List.length_mapIdx]

/-- A stride that is too small for a record gives none at all. -/
theorem IsLawful.decode?_eq_none (lawful : format.IsLawful)
    (narrow : table.stride < format.size table.layout) (index : Nat) :
    table.decode? (format.fields table.layout index) index = none := by
  apply Option.eq_none_iff_forall_ne_some.mpr
  intro value decoded
  obtain ⟨record, found, read⟩ := Table.decode?_eq_some_iff.mp decoded
  have short : record.size < format.size table.layout := by rwa [Table.size_of_record? found]
  obtain ⟨fault, refused⟩ :=
    FieldReader.exists_error_of_exactly (lawful.exactly table.layout index) short
  cases refused.symm.trans read

theorem IsLawful.entries_eq_nil (lawful : format.IsLawful)
    (narrow : table.stride < format.size table.layout) :
    (List.range table.size).filterMap (fun index =>
      table.decode? (format.fields table.layout index) index) = [] :=
  List.filterMap_eq_nil_iff.mpr fun index _ => lawful.decode?_eq_none narrow index

/-- A record depends on the bytes of its stride and on no others. -/
theorem decode?_congr {table other : Table} (reader : FieldReader α) {index : Nat}
    (spaced : table.stride = other.stride)
    (agree : AgreeAt index table.stride table.bytes other.bytes) :
    table.decode? reader index = other.decode? reader index := by
  have sliced : table.record? index = other.record? index := by
    unfold Table.record?
    rw [← spaced]
    apply Bytes.slice?_congr table.stride_pos
    intro place least most
    exact agree place least (by rwa [Nat.succ_mul])
  rw [Table.decode?, Table.decode?, sliced]

/-- A stride that is long enough gives a record at every index that the table has and at no other.
-/
theorem IsLawful.isSome_decode?_iff (lawful : format.IsLawful)
    (wide : format.size table.layout ≤ table.stride) (index : Nat) :
    (table.decode? (format.fields table.layout index) index).isSome ↔ index < table.size := by
  rw [← Table.record?_isSome_iff]
  cases found : table.record? index with
  | none =>
      rw [Table.decode?, found]
      rfl
  | some record =>
      obtain ⟨value, read⟩ := FieldReader.exists_decode_of_takes
        (lawful.exactly table.layout index).takes
        (show _ ≤ record.size by rwa [Table.size_of_record? found])
      rw [Table.decode?_eq_some_iff.mpr ⟨record, found, read⟩]
      rfl

/-- The list of all records has at every index the one that is decoded there. -/
theorem IsLawful.getElem?_entries (lawful : format.IsLawful) (table : Table) (index : Nat) :
    ((List.range table.size).filterMap fun index =>
      table.decode? (format.fields table.layout index) index)[index]? =
      table.decode? (format.fields table.layout index) index := by
  by_cases narrow : table.stride < format.size table.layout
  · rw [lawful.entries_eq_nil narrow, lawful.decode?_eq_none narrow]
    rfl
  · apply getElem?_filterMap_range_of_isSome_iff
    intro index
    exact lawful.isSome_decode?_iff (Nat.le_of_not_lt narrow) index

/-- The tables that are read record by record give the records that are laid out in them. -/
theorem IsLawful.decodesAll (lawful : format.IsLawful) :
    format.DecodesAll (fun table index => table.decode? (format.fields table.layout index) index)
      (fun table => (List.range table.size).filterMap fun index =>
        table.decode? (format.fields table.layout index) index) where
  inverts table xs _ fits laid := by
    have each := lawful.decode?_eq fits laid
    refine ⟨?_, each⟩
    apply List.ext_getElem?
    intro index
    rw [lawful.getElem?_entries, each, List.getElem?_mapIdx]
  refuses table narrow :=
    ⟨lawful.entries_eq_nil narrow, lawful.decode?_eq_none narrow⟩
  isLocal table other index spaced same agree := by
    have here := decode?_congr (format.fields table.layout index) spaced agree
    rw [lawful.getElem?_entries, lawful.getElem?_entries, here, same]
    exact ⟨rfl, rfl⟩

/-- The first records of a buffer are those that are laid out in it. -/
theorem IsLawful.decodesFirst (lawful : format.IsLawful)
    (small : ∀ layout, format.size layout < UInt64.size)
    {decodeTable : Bytes → Nat → Nat → Layout → Except Fault (List α)}
    (decodes : ∀ data stride count layout, decodeTable data stride count layout =
      (Table.firstRecords data stride count layout >>= (·.decodeAll (format.fields layout)))) :
    format.DecodesFirst decodeTable where
  inverts layout stride count xs data wide fits short laid := by
    rw [decodes]
    have bounded : bufferLimit < UInt64.size - 1 := by decide
    by_cases whole : stride * count ≤ data.size
    · rw [if_pos whole, Table.firstRecords_of_whole laid.stride_pos whole (by omega)]
      change Table.decodeAll _ _ = _
      have front : LaidOut (format.encode layout) stride (xs.take count)
          (data.extract 0 (stride * count)).toList := by
        rw [Bytes.toList_extract_front]
        exact laid.take (by rwa [Array.length_toList])
      apply Table.decodeAll_eq_ok_iff.mpr
      refine ⟨(size_of_laidOut front).symm, ?_⟩
      intro index _
      rw [List.getElem?_mapIdx]
      exact lawful.decode?_eq (fun x listed => fits x (List.mem_of_mem_take listed)) front index
    · rw [if_neg whole, Table.firstRecords]
      have needed := Word.toNat_capped (stride * count)
      rw [Bytes.slice?_eq_none_iff.mpr (by omega)]
      rfl
  refuses layout stride count data spaced narrow counted := by
    rw [decodes]
    cases cut : Table.firstRecords data stride count layout with
    | error fault => exact ⟨fault, rfl⟩
    | ok table =>
        obtain ⟨rfl, sliced⟩ := Table.of_firstRecords cut
        apply Table.exists_decodeAll_eq_error (lawful.exactly layout) narrow
        rw [Table.size, Bytes.size_of_slice? sliced, Word.toNat_capped]
        have room := small layout
        have least : table.stride * 1 ≤ table.stride * count := Nat.mul_le_mul_left _ counted
        exact Nat.div_pos (by omega) spaced
  isLocal layout stride count count' data data' xs xs' index decoded decoded' inside inside'
      agree := by
    rw [decodes] at decoded decoded'
    have stands := List.getElem?_eq_getElem inside
    have stands' := List.getElem?_eq_getElem inside'
    obtain ⟨spaced, record, found, read⟩ := Table.exists_slice_of_decodeAll decoded stands
    obtain ⟨-, record', found', read'⟩ := Table.exists_slice_of_decodeAll decoded' stands'
    have same := Bytes.slice?_congr spaced (fun place least most =>
      agree place least (by rwa [Nat.succ_mul]))
    rw [found, found'] at same
    obtain rfl : record = record' := Option.some.inj same
    rw [stands, stands', Except.ok.inj (read.symm.trans read')]

end Lawful

end RecordFormat

/-- Whatever the class and the byte order, program headers, section headers, symbols and both kinds
of relocations that are laid out in a table are decoded to just these records, a stride that is too
small for them gives none, and no record depends on bytes outside its own stride. -/
theorem recordTables_decode :
    Segment.format.DecodesFirst Segment.decodeTable ∧
    SectionHeader.format.DecodesFirst SectionHeader.decodeTable ∧
    (∀ strings, Symbol.format.DecodesAll Table.symbol?
      fun table => (StaticSymbols.mk table strings).symbols) ∧
    ∀ kind, (Relocation.format kind).DecodesAll
      (fun table => table.decode? (Relocation.fields table.layout kind))
      fun table => (RelocationTable.mk table kind).relocations := by
  refine ⟨?_, ?_, ?_, ?_⟩
  · apply Segment.isLawful_format.decodesFirst
    · intro layout
      change layout.segmentSize < UInt64.size
      unfold Layout.segmentSize
      split <;> decide
    · intro data stride count layout
      rfl
  · apply SectionHeader.isLawful_format.decodesFirst
    · intro layout
      change layout.sectionSize < UInt64.size
      unfold Layout.sectionSize
      split <;> decide
    · intro data stride count layout
      rfl
  · intro strings
    exact Symbol.isLawful_format.decodesAll
  · intro kind
    exact (Relocation.isLawful_format kind).decodesAll

/-- Two relocations with addends, each of them followed by four bytes that belong to no field. -/
def Relocation.padded : List Relocation :=
  [⟨0x1000, 1, 7, -4⟩, ⟨0x2000, 0xffffff, 0x16, 8⟩]

def Table.padded : Table where
  bytes := (Relocation.padded.flatMap fun relocation =>
    relocation.encode ⟨.elf32, .big⟩ .rela ++ [0xee, 0xee, 0xee, 0xee]).toArray ++ #[0xaa, 0xbb]
  stride := 16
  layout := ⟨.elf32, .big⟩
  stride_pos := by decide

theorem relocations_padded :
    (RelocationTable.mk .padded .rela).relocations = Relocation.padded ∧
      (RelocationTable.mk { Table.padded with stride := 8, stride_pos := by decide } .rela).relocations
        = [] := by
  have decodes := recordTables_decode.2.2.2 .rela
  have fits : ∀ relocation ∈ Relocation.padded,
      (Relocation.format .rela).Fits Table.padded.layout relocation := by
    intro relocation listed
    change _ ∈ [_, _] at listed
    simp only [List.mem_cons, List.not_mem_nil, or_false] at listed
    rcases listed with rfl | rfl
    · exact ⟨by decide, by decide, by decide, by decide, by decide⟩
    · exact ⟨by decide, by decide, by decide, by decide, by decide⟩
  let encode := Relocation.encode ⟨.elf32, .big⟩ .rela
  have tail : LaidOut encode 16 [] [0xaa, 0xbb] := .tail (by decide)
  have last : LaidOut encode 16 [⟨0x2000, 0xffffff, 0x16, 8⟩] _ :=
    .record (show _ + [0xee, 0xee, 0xee, 0xee].length = 16 from rfl) tail
  have laid : LaidOut encode 16 Relocation.padded _ :=
    .record (show _ + [0xee, 0xee, 0xee, 0xee].length = 16 from rfl) last
  have whole := (decodes.inverts .padded Relocation.padded (by decide) fits laid).1
  have none := (decodes.refuses { Table.padded with stride := 8, stride_pos := by decide }
    (by decide)).1
  exact ⟨whole, none⟩

end ElfLens
