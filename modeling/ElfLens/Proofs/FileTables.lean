import ElfLens.Proofs.LoadedFile

set_option autoImplicit false

namespace ElfLens

namespace Segment

/-- Where in the file the byte is that the segment fills an address with. -/
def filePlace (segment : Segment) (address : UInt64) : Nat :=
  segment.offset.toNat + (address.toNat - segment.vaddr.toNat)

/-- The segment is loaded, its bytes of the file fill the first address of the range and all of the
range, and the first of them stands at an offset that a word has room for. -/
structure Fills (segment : Segment) (address length : UInt64) : Prop where
  load : segment.isLoad
  start : segment.vaddr ≤ address
  first : address.toNat < segment.vaddr.toNat + segment.fileSize.toNat
  stop : address.toNat + length.toNat ≤ segment.vaddr.toNat + segment.fileSize.toNat
  fits : segment.filePlace address < UInt64.size

instance (segment : Segment) (address length : UInt64) :
    Decidable (segment.Fills address length) :=
  decidable_of_iff
    (segment.isLoad ∧ segment.vaddr ≤ address ∧
      address.toNat < segment.vaddr.toNat + segment.fileSize.toNat ∧
      address.toNat + length.toNat ≤ segment.vaddr.toNat + segment.fileSize.toNat ∧
      segment.filePlace address < UInt64.size)
    ⟨fun ⟨load, start, first, stop, fits⟩ => ⟨load, start, first, stop, fits⟩,
      fun fills => ⟨fills.load, fills.start, fills.first, fills.stop, fills.fits⟩⟩

/-- The first of the segments, in the order of their headers, to fill the range. -/
def IsFirstToFill (segments : List Segment) (address length : UInt64) (segment : Segment) : Prop :=
  ∃ front back, segments = front ++ segment :: back ∧ segment.Fills address length ∧
    ∀ other ∈ front, ¬ other.Fills address length

/-- The offset at which a segment has the range, if it is loaded. -/
def loadedOffset? (address length : UInt64) (segment : Segment) : Option UInt64 :=
  if segment.isLoad then segment.rangeOffset? address length else none

variable {segment : Segment} {segments : List Segment} {address length start : UInt64}

theorem loadedOffset?_eq_some_iff :
    segment.loadedOffset? address length = some start ↔
      segment.Fills address length ∧ start.toNat = segment.filePlace address := by
  rw [loadedOffset?, Option.ite_none_right_eq_some, rangeOffset?_eq_some_iff]
  have bound := start.toNat_lt
  have size := Word.size_eq
  constructor
  · rintro ⟨load, distance, away, sum, below, within⟩
    have place : start.toNat = segment.filePlace address := by
      rw [filePlace, sum, away, Nat.add_sub_cancel_left]
    refine ⟨⟨load, ?_, by omega, by omega, by omega⟩, place⟩
    rw [UInt64.le_iff_toNat_le]
    omega
  · rintro ⟨⟨load, behind, first, stop, -⟩, place⟩
    rw [UInt64.le_iff_toNat_le] at behind
    exact ⟨load, address.toNat - segment.vaddr.toNat, by omega, place, by omega, by omega⟩

theorem loadedOffset?_eq_none_iff :
    segment.loadedOffset? address length = none ↔ ¬ segment.Fills address length := by
  rw [Option.eq_none_iff_forall_ne_some]
  simp only [ne_eq, loadedOffset?_eq_some_iff, not_and]
  constructor
  · intro apart fills
    exact apart (UInt64.ofNat (segment.filePlace address)) fills
      (UInt64.toNat_ofNat_of_lt' fills.fits)
  · intro outside _ fills
    exact absurd fills outside

/-- A search for the first segment that has the range finds the first to fill it. -/
theorem findSome?_loadedOffset?_eq_some_iff :
    segments.findSome? (loadedOffset? address length) = some start ↔
      ∃ segment, IsFirstToFill segments address length segment ∧
        start.toNat = segment.filePlace address := by
  simp only [List.findSome?_eq_some_iff, loadedOffset?_eq_some_iff, loadedOffset?_eq_none_iff]
  constructor
  · rintro ⟨front, segment, back, parts, ⟨fills, place⟩, before⟩
    exact ⟨segment, ⟨front, back, parts, fills, before⟩, place⟩
  · rintro ⟨segment, ⟨front, back, parts, fills, before⟩, place⟩
    exact ⟨front, segment, back, parts, ⟨fills, place⟩, before⟩

end Segment

namespace AddressSpace

variable {memory : Memory} {size : UInt64} {limits : Limits} {segments : List Segment}
  {content : Bytes} {address length : UInt64}

theorem fileOffset?_withSegments :
    ((file memory size limits).withSegments segments).fileOffset? address length =
      segments.findSome? (Segment.loadedOffset? address length) := by
  change (segments.filter (·.isLoad)).findSome? (·.rangeOffset? address length) = _
  rw [← List.head?_filterMap, List.filterMap_filter, List.head?_filterMap]
  rfl

/-- A file gives a table from the offset at which a segment has it, and tells apart whether the
table is too large or at no offset, or whether it is the file that ends before it. -/
theorem readTable_withSegments (filled : content ≠ #[]) :
    ((file (.ofFile content) size limits).withSegments segments).readTable address length =
      if limits.tableBytes < length then .error (.truncatedTable address.toNat length.toNat)
      else
        match segments.findSome? (Segment.loadedOffset? address length) with
        | none => .error (.truncatedTable address.toNat length.toNat)
        | some start =>
          match content.slice? start.toNat length.toNat with
          | some bytes => .ok bytes
          | none => .error (.memoryRead start.toNat length.toNat) := by
  rw [readTable, fileOffset?_withSegments]
  change (if limits.tableBytes < length then _ else _) = _
  cases segments.findSome? (Segment.loadedOffset? address length) with
  | none => rfl
  | some start => exact congrArg _ (Memory.read_ofFile filled start length)

theorem readTable_eq_ok_iff (filled : content ≠ #[]) {bytes : Bytes} :
    ((file (.ofFile content) size limits).withSegments segments).readTable address length =
        .ok bytes ↔
      length ≤ limits.tableBytes ∧ ∃ start,
        segments.findSome? (Segment.loadedOffset? address length) = some start ∧
          content.slice? start.toNat length.toNat = some bytes := by
  rw [readTable_withSegments filled, ← UInt64.not_lt]
  by_cases large : limits.tableBytes < length
  · simp [large]
  · simp only [large, ↓reduceIte, not_false_eq_true, true_and]
    cases segments.findSome? (Segment.loadedOffset? address length) with
    | none => simp
    | some start =>
        cases sliced : content.slice? start.toNat length.toNat with
        | none => simp [sliced]
        | some part => simp [sliced]

theorem readTable_eq_error_iff (filled : content ≠ #[]) {fault : Fault} :
    ((file (.ofFile content) size limits).withSegments segments).readTable address length =
        .error fault ↔
      ((limits.tableBytes < length ∨
          segments.findSome? (Segment.loadedOffset? address length) = none) ∧
        fault = .truncatedTable address.toNat length.toNat) ∨
      (length ≤ limits.tableBytes ∧ ∃ start,
        segments.findSome? (Segment.loadedOffset? address length) = some start ∧
          content.size < start.toNat + length.toNat ∧
          fault = .memoryRead start.toNat length.toNat) := by
  rw [readTable_withSegments filled, ← UInt64.not_lt]
  by_cases large : limits.tableBytes < length
  · simp [large, eq_comm]
  · simp only [large, ↓reduceIte, not_false_eq_true, true_and, false_or]
    cases segments.findSome? (Segment.loadedOffset? address length) with
    | none => simp [eq_comm]
    | some start =>
        simp only [reduceCtorEq, false_and, Option.some.injEq, exists_eq_left', false_or,
          ← Bytes.slice?_eq_none_iff]
        cases sliced : content.slice? start.toNat length.toNat with
        | none => simp [eq_comm]
        | some part => simp

/-- A table is read from a file that is not empty exactly if it is no larger than a table may be, a
loaded segment fills all of it, and the file has the bytes that the first such segment, in the order
of the headers, fills it with; those are then what is read, each of them a byte of the segment, and
in every other case there is a fault that tells the table or the range of the file. Segments that
are not loaded make no difference. -/
theorem readTable_of_first_to_fill (filled : content ≠ #[]) (size : UInt64) (limits : Limits)
    (segments : List Segment) (address length : UInt64) :
    let space := (file (.ofFile content) size limits).withSegments segments
    (∀ start, space.fileOffset? address length = some start ↔
      ∃ segment, Segment.IsFirstToFill segments address length segment ∧
        start.toNat = segment.filePlace address) ∧
    ((space.fileOffset? address length).isSome ↔
      ∃ segment ∈ segments, segment.Fills address length) ∧
    (∀ bytes, space.readTable address length = .ok bytes ↔
      length ≤ limits.tableBytes ∧ ∃ start, space.fileOffset? address length = some start ∧
        content.slice? start.toNat length.toNat = some bytes) ∧
    (∀ fault, space.readTable address length = .error fault ↔
      ((limits.tableBytes < length ∨ space.fileOffset? address length = none) ∧
        fault = .truncatedTable address.toNat length.toNat) ∨
      (length ≤ limits.tableBytes ∧ ∃ start, space.fileOffset? address length = some start ∧
        content.size < start.toNat + length.toNat ∧
        fault = .memoryRead start.toNat length.toNat)) ∧
    (∀ bytes, space.readTable address length = .ok bytes → bytes.size = length.toNat ∧
      ∃ segment ∈ segments, segment.isLoad ∧ ∀ index < length.toNat,
        segment.filePlace address + index < segment.offset.toNat + segment.fileSize.toNat ∧
        segment.filePlace address + index < content.size ∧
        bytes[index]? = content[segment.filePlace address + index]?) ∧
    ∀ others : List Segment, others.filter (·.isLoad) = segments.filter (·.isLoad) →
      (file (.ofFile content) size limits).withSegments others = space := by
  intro space
  have found : space.fileOffset? address length =
      segments.findSome? (Segment.loadedOffset? address length) := fileOffset?_withSegments
  simp only [found]
  refine ⟨fun _ => Segment.findSome?_loadedOffset?_eq_some_iff, ?_,
    fun _ => readTable_eq_ok_iff filled, fun _ => readTable_eq_error_iff filled, ?_, ?_⟩
  · rw [List.findSome?_isSome_iff]
    simp only [← Option.not_isNone, Bool.not_eq_true', ← Bool.not_eq_true,
      Option.isNone_iff_eq_none, Segment.loadedOffset?_eq_none_iff, Classical.not_not]
  · intro bytes read
    obtain ⟨-, start, first, sliced⟩ := (readTable_eq_ok_iff filled).mp read
    obtain ⟨segment, ⟨front, back, rfl, fills, -⟩, place⟩ :=
      Segment.findSome?_loadedOffset?_eq_some_iff.mp first
    obtain ⟨inside, -⟩ := Bytes.slice?_eq_some_iff.mp sliced
    refine ⟨Bytes.size_of_slice? sliced, segment, by simp, fills.load, ?_⟩
    intro index within
    have behind := UInt64.le_iff_toNat_le.mp fills.start
    have stop := fills.stop
    rw [← place]
    refine ⟨?_, by omega, Bytes.getElem?_of_slice? sliced within⟩
    rw [place, Segment.filePlace]
    omega
  · intro others same
    change AddressSpace.mk _ (.file _ (others.filter (·.isLoad))) _ = _
    rw [same]
    rfl

/-- The program headers of a file of sixteen bytes, four of which are about the address `0x400`: a
note, a segment at the end of all offsets, one of four bytes, and one that has eight. -/
def crowdedHeaders : List Segment :=
  let header := fun typeCode offset vaddr fileSize =>
    Segment.mk 0 typeCode 4 offset vaddr vaddr fileSize fileSize 1
  [header 4 0 0x400 16, header 1 0xfffffffffffffff8 0x3f8 0x100, header 1 12 0x400 4,
    header 1 2 0x3fe 14, header 1 0 0x400 16]

/-- Eight bytes are read from the one segment that has them, past those that the address belongs to
as well; they are not put together from two segments, nor is what a segment lacks made up. -/
theorem readTable_crowdedHeaders :
    let content : Bytes := #[0, 1, 2, 3, 4, 5, 6, 7, 8, 9, 10, 11, 12, 13, 14, 15]
    let space := (file (.ofFile content) 16 {}).withSegments crowdedHeaders
    content ≠ #[] ∧ space.fileOffset? 0x400 8 = some 4 ∧
      space.readTable 0x400 8 = .ok #[4, 5, 6, 7, 8, 9, 10, 11] ∧
      space.readTable 0x400 17 = .error (.truncatedTable 0x400 17) ∧
      space.readTable 0x410 0 = .error (.truncatedTable 0x410 0) := by
  intro content space
  have filled : content ≠ #[] := by decide
  obtain ⟨found, -, read, -⟩ := readTable_of_first_to_fill filled 16 {} crowdedHeaders 0x400 8
  have start : space.fileOffset? 0x400 8 = some 4 := by
    refine (found 4).mpr ⟨_, ⟨crowdedHeaders.take 3, crowdedHeaders.drop 4, rfl, ?_, ?_⟩, ?_⟩
    · decide
    · decide
    · decide
  have missing : ∀ address length, (∀ segment ∈ crowdedHeaders, ¬ segment.Fills address length) →
      space.readTable address length = .error (.truncatedTable address.toNat length.toNat) := by
    intro address length outside
    obtain ⟨-, some_fills, -, failed, -⟩ :=
      readTable_of_first_to_fill filled 16 {} crowdedHeaders address length
    refine (failed _).mpr (.inl ⟨.inr ?_, rfl⟩)
    rw [← Option.not_isSome_iff_eq_none, some_fills]
    rintro ⟨segment, listed, fills⟩
    exact outside segment listed fills
  refine ⟨filled, start, (read _).mpr ⟨by decide, 4, start, rfl⟩, ?_, ?_⟩
  · exact missing 0x400 17 (by decide)
  · exact missing 0x410 0 (by decide)

end AddressSpace
end ElfLens
