import ElfLens.Proofs.HeaderBytes

set_option autoImplicit false

namespace ElfLens

open FieldReader

theorem Class.unknown_of_ofCode? {code : UInt8} {fault : Fault}
    (refused : ofCode? code = .error fault) : code ≠ 1 ∧ code ≠ 2 := by
  constructor
  · rintro rfl
    cases refused
  · rintro rfl
    cases refused

theorem Endian.unknown_of_ofCode? {code : UInt8} {fault : Fault}
    (refused : ofCode? code = .error fault) : code ≠ 1 ∧ code ≠ 2 := by
  constructor
  · rintro rfl
    cases refused
  · rintro rfl
    cases refused

namespace FileHeader

/-- The header can be accepted: the sizes it gives are those of its class, or large enough. -/
structure IsSound (header : FileHeader) : Prop where
  ownSize : header.headerSize.toNat = header.layout.headerSize
  segments : header.segmentCount = 0 ∨ header.layout.segmentSize ≤ header.segmentStride.toNat
  sections : header.sectionCount = 0 ∨ header.layout.sectionSize ≤ header.sectionStride.toNat

theorem toNat_eq_zero_iff {count : UInt16} : count.toNat = 0 ↔ count = 0 := by
  rw [← UInt16.toNat_inj]
  rfl

/-- Records that are counted but too small are a defect; any others are not. -/
theorem not_narrow_iff {count stride : UInt16} {least : Nat} :
    ¬ (0 < count ∧ stride.toNat < least) ↔ count = 0 ∨ least ≤ stride.toNat := by
  rw [Classical.not_and_iff_not_or_not, UInt16.pos_iff_ne_zero, Classical.not_not, Nat.not_lt]

theorem defect?_eq_none_iff {header : FileHeader} : header.defect? = none ↔ header.IsSound := by
  constructor
  · intro sound
    refine ⟨?_, ?_, ?_⟩
    · unfold defect? at sound
      dsimp only at sound
      split at sound
      · cases sound
      · rename_i same
        exact Classical.not_not.mp same
    · by_cases none : header.segmentCount = 0
      · exact .inl none
      · exact .inr (segmentSize_le_of_defect? sound none)
    · by_cases none : header.sectionCount = 0
      · exact .inl none
      · exact .inr (sectionSize_le_of_defect? sound none)
  · rintro ⟨ownSize, segments, sections⟩
    rw [defect?, if_neg (not_not_intro ownSize), if_neg (not_narrow_iff.mpr segments),
      if_neg (not_narrow_iff.mpr sections)]

/-- The data starts with the signature and is long enough for an identification. -/
structure IsSigned (data : Bytes) : Prop where
  signed : data.extract 0 4 = Ident.signature
  named : Ident.byteSize ≤ data.size

structure IsIdentified (data : Bytes) (layout : Layout) : Prop extends IsSigned data where
  wordClass : data[4]? = some layout.wordClass.code
  order : data[5]? = some layout.order.code

structure IsWhole (data : Bytes) (layout : Layout) : Prop extends IsIdentified data layout where
  long : layout.headerSize ≤ data.size

structure IsSized (data : Bytes) (layout : Layout) : Prop extends IsWhole data layout where
  ownSize : layout.numberAt data layout.sizesAt 2 = layout.headerSize

/-- The program headers, if there are any, are large enough. -/
structure IsSegmented (data : Bytes) (layout : Layout) : Prop extends IsSized data layout where
  segments : layout.numberAt data (layout.sizesAt + 4) 2 = 0 ∨
    layout.segmentSize ≤ layout.numberAt data (layout.sizesAt + 2) 2

/-- The section headers, if there are any, are large enough, and nothing else is amiss. -/
structure IsAccepted (data : Bytes) (layout : Layout) : Prop extends IsSegmented data layout where
  sections : layout.numberAt data (layout.sizesAt + 8) 2 = 0 ∨
    layout.sectionSize ≤ layout.numberAt data (layout.sizesAt + 6) 2

/-- The fault is the first demand that the data does not meet: all before it are met. -/
inductive Refuses (data : Bytes) : Fault → Prop where
  | unsigned (four : 4 ≤ data.size) (foreign : data.extract 0 4 ≠ Ident.signature) :
      Refuses data .notElf
  | short (signed : 4 ≤ data.size → data.extract 0 4 = Ident.signature)
      (few : data.size < Ident.byteSize) :
      Refuses data (.truncatedHeader Ident.byteSize data.size)
  | wordClass {code : UInt8} (signed : IsSigned data) (coded : data[4]? = some code)
      (unknown : code ≠ 1 ∧ code ≠ 2) : Refuses data (.unsupportedClass code)
  | order {wordClass : Class} {code : UInt8} (signed : IsSigned data)
      (classed : data[4]? = some wordClass.code) (coded : data[5]? = some code)
      (unknown : code ≠ 1 ∧ code ≠ 2) : Refuses data (.unsupportedOrder code)
  | cut {layout : Layout} (identified : IsIdentified data layout)
      (few : data.size < layout.headerSize) :
      Refuses data (.truncatedHeader layout.headerSize data.size)
  | ownSize {layout : Layout} (whole : IsWhole data layout)
      (other : layout.numberAt data layout.sizesAt 2 ≠ layout.headerSize) :
      Refuses data (.malformedHeader
        (.headerSize layout.headerSize (layout.numberAt data layout.sizesAt 2)))
  | segments {layout : Layout} (sized : IsSized data layout)
      (counted : layout.numberAt data (layout.sizesAt + 4) 2 ≠ 0)
      (narrow : layout.numberAt data (layout.sizesAt + 2) 2 < layout.segmentSize) :
      Refuses data (.malformedHeader
        (.segmentStride layout.segmentSize (layout.numberAt data (layout.sizesAt + 2) 2)))
  | sections {layout : Layout} (segmented : IsSegmented data layout)
      (counted : layout.numberAt data (layout.sizesAt + 8) 2 ≠ 0)
      (narrow : layout.numberAt data (layout.sizesAt + 6) 2 < layout.sectionSize) :
      Refuses data (.malformedHeader
        (.sectionStride layout.sectionSize (layout.numberAt data (layout.sizesAt + 6) 2)))

section Head

variable {header : FileHeader} {data : Bytes}

/-- Identified data that is long enough starts with a header of its layout. -/
theorem exists_isHeadOf {layout : Layout} (whole : IsWhole data layout) :
    ∃ header : FileHeader, header.layout = layout ∧ header.Fits ∧ header.IsHeadOf data := by
  obtain ⟨c, o, version, abi, abiVersion, blank, rest, seven, parts, fourth, fifth⟩ :=
    Ident.exists_codes whole.signed whole.named
  have size : data.size = 16 + rest.length := by
    rw [← Array.length_toList, parts]
    simp only [List.length_append, List.length_cons, List.length_nil, seven]
    change 4 + (5 + (7 + rest.length)) = _
    omega
  have long := whole.long
  obtain rfl : c = layout.wordClass.code := Option.some.inj (fourth.symm.trans whole.wordClass)
  obtain rfl : o = layout.order.code := Option.some.inj (fifth.symm.trans whole.order)
  let ident : Ident := ⟨layout.wordClass, layout.order, version, abi, abiVersion⟩
  have length : Ident.byteSize + (rest.take (layout.headerSize - 16)).length =
      ident.layout.headerSize := by
    have most := headerSize_eq layout
    rw [List.length_take_of_le (by omega), Ident.byteSize]
    change 16 + (layout.headerSize - 16) = layout.headerSize
    omega
  obtain ⟨header, named, fits, fields⟩ := exists_encodeFields ident length
  refine ⟨header, ?_, fits, blank, rest.drop (layout.headerSize - 16), seven, ?_⟩
  · rw [FileHeader.layout, named]
    rfl
  · rw [fields, List.take_append_drop, named, parts]
    rfl

theorem isWhole_of_isHeadOf (head : header.IsHeadOf data) : IsWhole data header.layout := by
  obtain ⟨blank, rest, seven, parts⟩ := head
  have size : header.layout.headerSize ≤ data.size := by
    have nine : header.ident.front.length = 9 := rfl
    have fields := header.length_encodeFields
    rw [Ident.byteSize] at fields
    rw [← Array.length_toList, parts]
    simp only [List.length_append, seven, nine]
    omega
  have named : Ident.byteSize ≤ data.size := by
    have least := headerSize_eq header.layout
    rw [Ident.byteSize]
    omega
  refine ⟨⟨⟨?_, named⟩, ?_, ?_⟩, size⟩
  · apply Array.toList_inj.mp
    rw [Bytes.toList_extract_front, parts]
    rfl
  · rw [← Array.getElem?_toList, parts]
    rfl
  · rw [← Array.getElem?_toList, parts]
    rfl

/-- What is demanded of the data is what is demanded of the header that it starts with. -/
theorem isAccepted_iff_isSound (head : header.IsHeadOf data) :
    IsAccepted data header.layout ↔ header.IsSound := by
  obtain ⟨ownSize, segmentStride, segmentCount, sectionStride, sectionCount⟩ :=
    numberAt_of_isHeadOf head
  constructor
  · intro accepted
    have same := accepted.ownSize
    have segments := accepted.segments
    have sections := accepted.sections
    rw [ownSize] at same
    rw [segmentCount, segmentStride, toNat_eq_zero_iff] at segments
    rw [sectionCount, sectionStride, toNat_eq_zero_iff] at sections
    exact ⟨same, segments, sections⟩
  · intro sound
    refine ⟨⟨⟨isWhole_of_isHeadOf head, ?_⟩, ?_⟩, ?_⟩
    · rw [ownSize]
      exact sound.ownSize
    · rw [segmentCount, segmentStride, toNat_eq_zero_iff]
      exact sound.segments
    · rw [sectionCount, sectionStride, toNat_eq_zero_iff]
      exact sound.sections

/-- Accepted data starts with a sound header, which is the one that is decoded. -/
theorem decode_of_isAccepted {layout : Layout} (accepted : IsAccepted data layout) :
    ∃ header, decode data = .ok header ∧ header.IsHeadOf data ∧ header.IsSound := by
  obtain ⟨header, rfl, fits, head⟩ := exists_isHeadOf accepted.toIsWhole
  have sound := (isAccepted_iff_isSound head).mp accepted
  refine ⟨header, ?_, head, sound⟩
  rw [decode_of_isHeadOf fits head, defect?_eq_none_iff.mpr sound]

/-- Data is refused for the first demand that it does not meet. -/
theorem decode_of_refuses {fault : Fault} (refused : Refuses data fault) :
    decode data = .error fault := by
  cases refused with
  | unsigned four foreign =>
      have unsigned : 4 ≤ data.size ∧ ¬ Ident.isSigned data :=
        ⟨four, fun signed => foreign (Ident.isSigned_iff.mp signed)⟩
      rw [decode, Ident.decode, if_pos unsigned]
      rfl
  | short signed few =>
      have passed : ¬ (4 ≤ data.size ∧ ¬ Ident.isSigned data) :=
        fun foreign => foreign.2 (Ident.isSigned_iff.mpr (signed foreign.1))
      rw [decode, Ident.decode, if_neg passed, if_pos few]
      rfl
  | @wordClass code signed coded unknown =>
      obtain ⟨c, o, _, _, _, _, _, seven, parts, fourth, -⟩ :=
        Ident.exists_codes signed.signed signed.named
      obtain rfl : c = code := Option.some.inj (fourth.symm.trans coded)
      rw [decode, Ident.decode_of_codes seven parts, Class.ofCode?, if_neg unknown.1,
        if_neg unknown.2]
      rfl
  | @order wordClass code signed classed coded unknown =>
      obtain ⟨c, o, _, _, _, _, _, seven, parts, fourth, fifth⟩ :=
        Ident.exists_codes signed.signed signed.named
      obtain rfl : c = wordClass.code := Option.some.inj (fourth.symm.trans classed)
      obtain rfl : o = code := Option.some.inj (fifth.symm.trans coded)
      rw [decode, Ident.decode_of_codes seven parts, Class.ofCode?_code, Endian.ofCode?,
        if_neg unknown.1, if_neg unknown.2]
      rfl
  | @cut layout identified few =>
      obtain ⟨c, o, version, abi, abiVersion, _, _, seven, parts, fourth, fifth⟩ :=
        Ident.exists_codes identified.signed identified.named
      obtain rfl : c = layout.wordClass.code :=
        Option.some.inj (fourth.symm.trans identified.wordClass)
      obtain rfl : o = layout.order.code := Option.some.inj (fifth.symm.trans identified.order)
      rw [decode, Ident.decode_of_codes seven parts, Class.ofCode?_code, Endian.ofCode?_code]
      change (if data.size < layout.headerSize then _ else _) = _
      rw [if_pos few]
      rfl
  | ownSize whole other =>
      obtain ⟨header, rfl, fits, head⟩ := exists_isHeadOf whole
      obtain ⟨ownSize, -⟩ := numberAt_of_isHeadOf head
      rw [ownSize] at other ⊢
      rw [decode_of_isHeadOf fits head, defect?, if_pos other]
  | segments sized counted narrow =>
      obtain ⟨header, rfl, fits, head⟩ := exists_isHeadOf sized.toIsWhole
      obtain ⟨ownSize, stride, count, -⟩ := numberAt_of_isHeadOf head
      have same := sized.ownSize
      rw [ownSize] at same
      rw [count] at counted
      rw [stride] at narrow ⊢
      have present : 0 < header.segmentCount := Nat.pos_of_ne_zero counted
      rw [decode_of_isHeadOf fits head, defect?, if_neg (not_not_intro same),
        if_pos ⟨present, narrow⟩]
  | sections segmented counted narrow =>
      obtain ⟨header, rfl, fits, head⟩ := exists_isHeadOf segmented.toIsWhole
      obtain ⟨ownSize, segmentStride, segmentCount, stride, count⟩ := numberAt_of_isHeadOf head
      have same := segmented.ownSize
      have wide := segmented.segments
      rw [ownSize] at same
      rw [segmentStride, segmentCount, toNat_eq_zero_iff] at wide
      rw [count] at counted
      rw [stride] at narrow ⊢
      have present : 0 < header.sectionCount := Nat.pos_of_ne_zero counted
      rw [decode_of_isHeadOf fits head, defect?, if_neg (not_not_intro same),
        if_neg (not_narrow_iff.mpr wide), if_pos ⟨present, narrow⟩]

/-- Identified data is accepted, or does not meet one of the demands that are left. -/
theorem isAccepted_or_refuses_of_isIdentified {layout : Layout}
    (identified : IsIdentified data layout) :
    IsAccepted data layout ∨ ∃ fault, Refuses data fault := by
  by_cases few : data.size < layout.headerSize
  · exact .inr ⟨_, .cut identified few⟩
  have whole : IsWhole data layout := ⟨identified, Nat.le_of_not_lt few⟩
  by_cases other : layout.numberAt data layout.sizesAt 2 ≠ layout.headerSize
  · exact .inr ⟨_, .ownSize whole other⟩
  have sized : IsSized data layout := ⟨whole, Classical.not_not.mp other⟩
  by_cases narrow : layout.numberAt data (layout.sizesAt + 4) 2 ≠ 0 ∧
      layout.numberAt data (layout.sizesAt + 2) 2 < layout.segmentSize
  · exact .inr ⟨_, .segments sized narrow.1 narrow.2⟩
  have segmented : IsSegmented data layout := ⟨sized, by omega⟩
  by_cases short : layout.numberAt data (layout.sizesAt + 8) 2 ≠ 0 ∧
      layout.numberAt data (layout.sizesAt + 6) 2 < layout.sectionSize
  · exact .inr ⟨_, .sections segmented short.1 short.2⟩
  exact .inl ⟨segmented, by omega⟩

/-- Any data is accepted, or does not meet one of the demands. -/
theorem isAccepted_or_refuses (data : Bytes) :
    (∃ layout, IsAccepted data layout) ∨ ∃ fault, Refuses data fault := by
  by_cases foreign : data.extract 0 4 ≠ Ident.signature
  · by_cases four : 4 ≤ data.size
    · exact .inr ⟨_, .unsigned four foreign⟩
    · have few : data.size < Ident.byteSize := Nat.lt_trans (Nat.lt_of_not_le four) (by decide)
      exact .inr ⟨_, .short (fun four' => absurd four' four) few⟩
  have first : data.extract 0 4 = Ident.signature := Classical.not_not.mp foreign
  by_cases few : data.size < Ident.byteSize
  · exact .inr ⟨_, .short (fun _ => first) few⟩
  have signed : IsSigned data := ⟨first, Nat.le_of_not_lt few⟩
  obtain ⟨c, o, -, -, -, -, -, -, -, fourth, fifth⟩ := Ident.exists_codes first signed.named
  cases classed : Class.ofCode? c with
  | error fault =>
      exact .inr ⟨_, .wordClass signed fourth (Class.unknown_of_ofCode? classed)⟩
  | ok wordClass =>
      rw [Class.ofCode?_eq_ok_iff.mp classed] at fourth
      cases ordered : Endian.ofCode? o with
      | error fault =>
          exact .inr ⟨_, .order signed fourth fifth (Endian.unknown_of_ofCode? ordered)⟩
      | ok order =>
          rw [Endian.ofCode?_eq_ok_iff.mp ordered] at fifth
          have identified : IsIdentified data ⟨wordClass, order⟩ := ⟨signed, fourth, fifth⟩
          exact (isAccepted_or_refuses_of_isIdentified identified).imp_left fun h => ⟨_, h⟩

/-- A header that is decoded is sound, and the data starts with it. -/
theorem isHeadOf_of_decode (decoded : decode data = .ok header) :
    header.IsHeadOf data ∧ header.IsSound := by
  rcases isAccepted_or_refuses data with ⟨layout, accepted⟩ | ⟨fault, refused⟩
  · obtain ⟨other, told, head, sound⟩ := decode_of_isAccepted accepted
    obtain rfl : other = header := Except.ok.inj (told.symm.trans decoded)
    exact ⟨head, sound⟩
  · cases (decode_of_refuses refused).symm.trans decoded

end Head

/-- A header is accepted exactly if the bytes meet every demand, and nothing of it is lost: it is
written back to the bytes it was read from, but for those that say nothing, and a sound header is
read back from its bytes, whatever follows them. What is refused is refused for the first demand
that it does not meet. -/
theorem decode_exactly :
    (∀ data : Bytes, (∃ header, decode data = .ok header) ↔ ∃ layout, IsAccepted data layout) ∧
    (∀ (data : Bytes) (header : FileHeader), decode data = .ok header →
      IsAccepted data header.layout ∧ header.encode.length = header.layout.headerSize ∧
      ∀ place < header.layout.headerSize, place < 9 ∨ Ident.byteSize ≤ place →
        header.encode[place]? = data[place]?) ∧
    (∀ (header : FileHeader) (rest : List UInt8), header.IsSound → header.Fits →
      decode (header.encode ++ rest).toArray = .ok header) ∧
    ∀ (data : Bytes) (fault : Fault), decode data = .error fault ↔ Refuses data fault := by
  refine ⟨?_, ?_, ?_, ?_⟩
  · intro data
    constructor
    · rintro ⟨header, decoded⟩
      obtain ⟨head, sound⟩ := isHeadOf_of_decode decoded
      exact ⟨_, (isAccepted_iff_isSound head).mpr sound⟩
    · rintro ⟨layout, accepted⟩
      obtain ⟨header, decoded, -⟩ := decode_of_isAccepted accepted
      exact ⟨header, decoded⟩
  · intro data header decoded
    obtain ⟨head, sound⟩ := isHeadOf_of_decode decoded
    refine ⟨(isAccepted_iff_isSound head).mpr sound, length_encode header, ?_⟩
    intro place inside said
    exact getElem?_encode_of_isHeadOf head inside said
  · intro header rest sound fits
    have head : header.IsHeadOf (header.encode ++ rest).toArray := by
      refine ⟨List.replicate 7 0, rest, List.length_replicate, ?_⟩
      rw [List.toList_toArray, encode_eq, List.append_assoc, List.append_assoc]
    rw [decode_of_isHeadOf fits head, defect?_eq_none_iff.mpr sound]
  · intro data fault
    constructor
    · intro decoded
      rcases isAccepted_or_refuses data with ⟨layout, accepted⟩ | ⟨other, refused⟩
      · obtain ⟨header, told, -⟩ := decode_of_isAccepted accepted
        cases told.symm.trans decoded
      · obtain rfl : other = fault :=
          Except.error.inj ((decode_of_refuses refused).symm.trans decoded)
        exact refused
    · exact decode_of_refuses

/-- A shared object without any table, in big-endian byte order. -/
def bareObject : FileHeader where
  ident := ⟨.elf32, .big, 1, 0, 0⟩
  typeCode := 3
  machineCode := 20
  version := 1
  entry := 0x400
  segmentOffset := 52
  sectionOffset := 0
  flags := 0
  headerSize := 52
  segmentStride := 0
  segmentCount := 0
  sectionStride := 0
  sectionCount := 0
  nameSection := 0

theorem decode_bareObject :
    bareObject.IsSound ∧ bareObject.Fits ∧
      decode (bareObject.encode ++ [0x90, 0x90]).toArray = .ok bareObject ∧
      IsAccepted (bareObject.encode ++ [0x90, 0x90]).toArray bareObject.layout ∧
      decode #[0x7f, 0x45, 0x4c, 0x46, 1] = .error (.truncatedHeader 16 5) := by
  have sound : bareObject.IsSound := ⟨by decide, .inl rfl, .inl rfl⟩
  have fits : bareObject.Fits := by
    intro field listed
    simp only [List.mem_cons, List.not_mem_nil, or_false] at listed
    rcases listed with rfl | rfl | rfl <;> decide
  have decoded := decode_exactly.2.2.1 bareObject [0x90, 0x90] sound fits
  have accepted := (decode_exactly.2.1 _ _ decoded).1
  have refused := (decode_exactly.2.2.2 _ _).mpr
    (show Refuses #[0x7f, 0x45, 0x4c, 0x46, 1] _ from .short (fun _ => by decide) (by decide))
  exact ⟨sound, fits, decoded, accepted, refused⟩

end FileHeader
end ElfLens
