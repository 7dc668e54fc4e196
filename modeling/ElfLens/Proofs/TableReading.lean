import ElfLens.Proofs.Record

set_option autoImplicit false

namespace ElfLens

/-- A list is decoded to the values that its elements are decoded to, in order. -/
theorem mapM_eq_ok_iff {α β : Type} {f : α → Except Fault β} {xs : List α} {ys : List β} :
    xs.mapM f = .ok ys ↔ xs.map f = ys.map .ok := by
  induction xs generalizing ys with
  | nil =>
      cases ys with
      | nil => exact ⟨fun _ => rfl, fun _ => rfl⟩
      | cons y ys => exact ⟨fun mapped => (nomatch mapped), fun same => (nomatch same)⟩
  | cons x xs ih =>
      rw [List.mapM_cons, List.map_cons]
      cases first : f x with
      | error fault =>
          constructor
          · intro mapped
            cases mapped
          · intro same
            cases ys with
            | nil => cases same
            | cons y ys => cases (List.cons.inj same).1
      | ok value =>
          constructor
          · intro mapped
            cases rest : xs.mapM f with
            | error fault =>
                rw [rest] at mapped
                cases mapped
            | ok values =>
                rw [rest] at mapped
                cases mapped
                rw [List.map_cons, ih.mp rest]
          · intro same
            cases ys with
            | nil => cases same
            | cons y ys =>
                obtain ⟨here, there⟩ := List.cons.inj same
                cases here
                rw [ih.mpr there]
                rfl

theorem exists_mapM_of_forall {α β : Type} {f : α → Except Fault β} {xs : List α}
    (succeeds : ∀ x ∈ xs, ∃ y, f x = .ok y) : ∃ ys, xs.mapM f = .ok ys ∧ ys.length = xs.length := by
  induction xs with
  | nil => exact ⟨[], rfl, rfl⟩
  | cons x xs ih =>
      obtain ⟨y, first⟩ := succeeds x (List.mem_cons_self ..)
      obtain ⟨ys, rest, length⟩ := ih fun x listed => succeeds x (List.mem_cons_of_mem _ listed)
      refine ⟨y :: ys, ?_, congrArg (· + 1) length⟩
      rw [List.mapM_cons, first, rest]
      rfl

/-- What a function gives for every number below a bound stands at that number. -/
theorem getElem?_filterMap_range {α : Type} {f : Nat → Option α} {count : Nat}
    (given : ∀ index < count, (f index).isSome) {index : Nat} (inside : index < count) :
    ((List.range count).filterMap f)[index]? = f index := by
  induction count generalizing f index with
  | zero => exact absurd inside (Nat.not_lt_zero _)
  | succ count ih =>
      obtain ⟨first, found⟩ := Option.isSome_iff_exists.mp (given 0 (Nat.succ_pos _))
      rw [List.range_succ_eq_map, List.filterMap_cons, found, List.filterMap_map]
      cases index with
      | zero => exact found.symm
      | succ index =>
          rw [List.getElem?_cons_succ]
          exact ih (fun place below => given (place + 1) (Nat.succ_lt_succ below))
            (Nat.lt_of_succ_lt_succ inside)

/-- What a function gives for just the numbers below a bound stands at just these numbers. -/
theorem getElem?_filterMap_range_of_isSome_iff {α : Type} {f : Nat → Option α} {count : Nat}
    (given : ∀ index, (f index).isSome ↔ index < count) (index : Nat) :
    ((List.range count).filterMap f)[index]? = f index := by
  by_cases inside : index < count
  · exact getElem?_filterMap_range (fun index below => (given index).mpr below) inside
  · have outside := inside
    rw [← given, Option.not_isSome_iff_eq_none] at outside
    rw [outside]
    apply List.getElem?_eq_none
    apply Nat.le_trans (List.length_filterMap_le ..)
    rw [List.length_range]
    exact Nat.le_of_not_lt inside

/-- A part of a byte string depends on no other bytes. -/
theorem Bytes.slice?_congr {bytes other : Bytes} {start length : Nat} (positive : 0 < length)
    (same : ∀ place, start ≤ place → place < start + length → bytes[place]? = other[place]?) :
    bytes.slice? start length = other.slice? start length := by
  have last := same (start + length - 1) (by omega) (by omega)
  have missing : bytes[start + length - 1]? = none ↔ other[start + length - 1]? = none := by
    rw [last]
  rw [Array.getElem?_eq_none_iff, Array.getElem?_eq_none_iff] at missing
  by_cases inside : start + length ≤ bytes.size
  · have inside' : start + length ≤ other.size := by omega
    rw [slice?, slice?, if_pos inside, if_pos inside']
    apply congrArg some
    apply Array.ext_getElem?
    intro place
    rw [Array.getElem?_extract, Array.getElem?_extract, Nat.min_eq_left inside,
      Nat.min_eq_left inside']
    split
    · exact same _ (Nat.le_add_right _ _) (by omega)
    · rfl
  · have outside : ¬ start + length ≤ other.size := by omega
    rw [slice?, slice?, if_neg inside, if_neg outside]

theorem Bytes.take_toList_congr {bytes other : Bytes} {count : Nat}
    (same : ∀ place < count, other[place]? = bytes[place]?) :
    other.toList.take count = bytes.toList.take count := by
  apply List.ext_getElem?
  intro place
  rw [List.getElem?_take, List.getElem?_take]
  split
  · rename_i inside
    rw [Array.getElem?_toList, Array.getElem?_toList, same place inside]
  · rfl

namespace Table

variable {α : Type} {table : Table} {reader : Nat → FieldReader α} {width : Nat}

theorem length_records (table : Table) : table.records.length = table.size := by
  have found : ∀ index ∈ List.range table.size, (table.record? index).isSome := by
    intro index listed
    exact record?_isSome_iff.mpr (List.mem_range.mp listed)
  rw [records, List.length_filterMap_eq_countP, List.countP_eq_length.mpr found, List.length_range]

theorem getElem?_records (table : Table) {index : Nat} (inside : index < table.size) :
    table.records[index]? = table.record? index :=
  getElem?_filterMap_range (fun _ below => record?_isSome_iff.mpr below) inside

theorem decode?_eq_some_iff {reader : FieldReader α} {index : Nat} {value : α} :
    table.decode? reader index = some value ↔
      ∃ record, table.record? index = some record ∧ reader.decode record = .ok value := by
  rw [decode?, Option.bind_eq_some_iff]
  constructor
  · rintro ⟨record, present, decoded⟩
    refine ⟨record, present, ?_⟩
    cases outcome : reader.decode record with
    | error fault => rw [outcome] at decoded; cases decoded
    | ok other => rw [outcome] at decoded; cases decoded; rfl
  · rintro ⟨record, present, decoded⟩
    exact ⟨record, present, by rw [decoded]; rfl⟩

theorem lt_size_of_decode? {reader : FieldReader α} {index : Nat} {value : α}
    (found : table.decode? reader index = some value) : index < table.size := by
  obtain ⟨record, present, -⟩ := decode?_eq_some_iff.mp found
  exact record?_isSome_iff.mp (Option.isSome_iff_exists.mpr ⟨record, present⟩)

/-- What is decoded at every index is what the reader makes of the record there. -/
theorem decodeAll_eq_ok_iff {values : List α} :
    table.decodeAll reader = .ok values ↔ values.length = table.size ∧
      ∀ index < table.size, table.decode? (reader index) index = values[index]? := by
  rw [decodeAll, mapM_eq_ok_iff]
  constructor
  · intro same
    have length := congrArg List.length same
    rw [List.length_map, List.length_map, List.length_zipIdx, length_records] at length
    refine ⟨length.symm, ?_⟩
    intro index inside
    obtain ⟨record, found⟩ := Option.isSome_iff_exists.mp (record?_isSome_iff.mpr inside)
    have stands := List.getElem?_eq_getElem (length ▸ inside)
    have here := congrArg (·[index]?) same
    simp only [List.getElem?_map, List.getElem?_zipIdx, getElem?_records table inside, found,
      stands, Option.map_some, Nat.zero_add, Option.some.injEq] at here
    rw [stands]
    exact decode?_eq_some_iff.mpr ⟨record, found, here⟩
  · rintro ⟨length, decoded⟩
    apply List.ext_getElem?
    intro index
    simp only [List.getElem?_map, List.getElem?_zipIdx, Nat.zero_add]
    by_cases inside : index < table.size
    · have stands := List.getElem?_eq_getElem (length ▸ inside)
      obtain ⟨record, found, read⟩ :=
        decode?_eq_some_iff.mp ((decoded index inside).trans stands)
      simp only [getElem?_records table inside, found, stands, Option.map_some, read]
    · rw [List.getElem?_eq_none (by rw [length_records]; omega),
        List.getElem?_eq_none (by omega)]
      rfl

/-- Records that are long enough are all decoded. -/
theorem exists_decodeAll (takes : ∀ index, (reader index).Takes width)
    (wide : width ≤ table.stride) :
    ∃ values, table.decodeAll reader = .ok values ∧ values.length = table.size := by
  rw [← table.length_records, ← List.length_zipIdx (i := 0)]
  apply exists_mapM_of_forall
  rintro ⟨record, index⟩ listed
  have held : record ∈ table.records := List.fst_mem_of_mem_zipIdx listed
  obtain ⟨place, -, found⟩ := List.mem_filterMap.mp held
  apply FieldReader.exists_decode_of_takes (takes index)
  rw [size_of_record? found]
  exact wide

/-- Records that are too short are refused, if there are any. -/
theorem exists_decodeAll_eq_error (exactly : ∀ index, (reader index).Exactly width)
    (narrow : table.stride < width) (present : 0 < table.size) :
    ∃ fault, table.decodeAll reader = .error fault := by
  cases decoded : table.decodeAll reader with
  | error fault => exact ⟨fault, rfl⟩
  | ok values =>
      obtain ⟨length, each⟩ := decodeAll_eq_ok_iff.mp decoded
      have stands := List.getElem?_eq_getElem (length ▸ present)
      obtain ⟨record, found, read⟩ := decode?_eq_some_iff.mp ((each 0 present).trans stands)
      have short : record.size < width := by rwa [size_of_record? found]
      obtain ⟨fault, refused⟩ := FieldReader.exists_error_of_exactly (exactly 0) short
      cases refused.symm.trans read

/-- The records that are asked for are the first of the data, if it has so many. -/
theorem firstRecords_of_whole {data : Bytes} {stride count : Nat} {layout : Layout}
    (spaced : 0 < stride) (whole : stride * count ≤ data.size)
    (fits : stride * count < UInt64.size) :
    firstRecords data stride count layout =
      .ok ⟨data.extract 0 (stride * count), stride, layout, spaced⟩ := by
  have needed : (Word.capped (stride * count)).toNat = stride * count := by
    rw [Word.toNat_capped]
    exact Nat.min_eq_left (Nat.le_pred_of_lt fits)
  have sliced : data.slice? 0 (stride * count) = some (data.extract 0 (stride * count)) := by
    apply Bytes.slice?_eq_some_iff.mpr
    rw [Nat.zero_add]
    exact ⟨whole, rfl⟩
  rw [firstRecords, needed, sliced]
  exact dif_pos spaced

/-- Whatever records are given are strides of the data, and only an overflow keeps them from being
as many as are asked for. -/
theorem of_firstRecords {data : Bytes} {stride count : Nat} {layout : Layout}
    (cut : firstRecords data stride count layout = .ok table) :
    table.stride = stride ∧ data.slice? 0 (Word.capped (stride * count)).toNat = some table.bytes := by
  unfold firstRecords at cut
  cases sliced : data.slice? 0 (Word.capped (stride * count)).toNat with
  | none =>
      simp only [sliced] at cut
      cases cut
  | some bytes =>
      simp only [sliced, make?] at cut
      split at cut
      · cases cut
        exact ⟨rfl, rfl⟩
      · cases cut

/-- A record of the first records is a part of the data. -/
theorem slice?_of_firstRecords {data : Bytes} {stride count : Nat} {layout : Layout}
    (cut : firstRecords data stride count layout = .ok table) {index : Nat} {record : Bytes}
    (found : table.record? index = some record) :
    data.slice? (index * stride) stride = some record := by
  obtain ⟨rfl, sliced⟩ := of_firstRecords cut
  obtain ⟨inside, rfl⟩ := Bytes.slice?_eq_some_iff.mp found
  obtain ⟨bound, whole⟩ := Bytes.slice?_eq_some_iff.mp sliced
  rw [Nat.zero_add] at bound whole
  apply Bytes.slice?_eq_some_iff.mpr
  have size := congrArg Array.size whole
  rw [Array.size_extract] at size
  refine ⟨by omega, ?_⟩
  rw [whole, Array.extract_extract, Nat.zero_add, Nat.zero_add, Nat.min_eq_left (by omega)]

/-- As many records as the data has room for are all decoded, if a stride has room for one. -/
theorem exists_decodeAll_firstRecords {data : Bytes} {stride count : Nat} {layout : Layout}
    (takes : ∀ index, (reader index).Takes width) (positive : 0 < width) (wide : width ≤ stride)
    (whole : stride * count ≤ data.size) (fits : stride * count < UInt64.size) :
    ∃ values, (firstRecords data stride count layout >>= (·.decodeAll reader)) = .ok values ∧
      values.length = count := by
  have spaced : 0 < stride := Nat.lt_of_lt_of_le positive wide
  let table : Table := ⟨data.extract 0 (stride * count), stride, layout, spaced⟩
  obtain ⟨values, decoded, length⟩ := exists_decodeAll takes (show width ≤ table.stride from wide)
  refine ⟨values, ?_, length.trans ?_⟩
  · rw [firstRecords_of_whole spaced whole fits]
    exact decoded
  · have size : table.bytes.size = stride * count := by
      rw [Array.size_extract, Nat.min_eq_left whole, Nat.sub_zero]
    rw [Table.size, size]
    exact Nat.mul_div_cancel_left count spaced

/-- What the first records are decoded to at an index is what the reader makes of the bytes there.
-/
theorem exists_slice_of_decodeAll {data : Bytes} {stride count : Nat} {layout : Layout}
    {values : List α}
    (decoded : (firstRecords data stride count layout >>= (·.decodeAll reader)) = .ok values)
    {index : Nat} {value : α} (stands : values[index]? = some value) :
    0 < stride ∧ ∃ record, data.slice? (index * stride) stride = some record ∧
      (reader index).decode record = .ok value := by
  cases cut : firstRecords data stride count layout with
  | error fault =>
      rw [cut] at decoded
      cases decoded
  | ok table =>
      rw [cut] at decoded
      obtain ⟨length, each⟩ := decodeAll_eq_ok_iff.mp decoded
      obtain ⟨inside, -⟩ := List.getElem?_eq_some_iff.mp stands
      obtain ⟨record, found, read⟩ :=
        decode?_eq_some_iff.mp ((each index (length ▸ inside)).trans stands)
      refine ⟨?_, record, slice?_of_firstRecords cut found, read⟩
      rw [← (of_firstRecords cut).1]
      exact table.stride_pos

end Table

namespace Segment

theorem exists_decodeTable {data : Bytes} {stride count : Nat} {layout : Layout}
    (whole : stride * count ≤ data.size) (fits : stride * count < UInt64.size)
    (wide : layout.segmentSize ≤ stride) :
    ∃ segments, decodeTable data stride count layout = .ok segments ∧ segments.length = count :=
  Table.exists_decodeAll_firstRecords (fun index => (exactly_fields layout index).takes)
    layout.segmentSize_pos wide whole fits

theorem index_of_fields (layout : Layout) (index : Nat) :
    (fields layout index).Ensures (·.index = index) := by
  unfold fields
  split
  all_goals
    exact .bind fun _ => .bind fun _ => .bind fun _ => .bind fun _ =>
      .bind fun _ => .bind fun _ => .bind fun _ => .bind fun _ => .pure rfl

theorem index_of_decodeTable {data : Bytes} {stride count : Nat} {layout : Layout}
    {segments : List Segment} (decoded : decodeTable data stride count layout = .ok segments)
    {index : Nat} {segment : Segment} (stands : segments[index]? = some segment) :
    segment.index = index := by
  obtain ⟨-, record, -, read⟩ := Table.exists_slice_of_decodeAll decoded stands
  exact (FieldReader.property_of_decode (index_of_fields layout index) read :)

end Segment

theorem SectionHeader.exists_decodeTable {data : Bytes} {stride count : Nat} {layout : Layout}
    (whole : stride * count ≤ data.size) (fits : stride * count < UInt64.size)
    (wide : layout.sectionSize ≤ stride) :
    ∃ headers, decodeTable data stride count layout = .ok headers ∧ headers.length = count :=
  Table.exists_decodeAll_firstRecords (fun _ => (exactly_fields layout).takes)
    layout.sectionSize_pos wide whole fits

end ElfLens
