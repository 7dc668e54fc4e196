import ElfLens.Proofs.ImageHead

set_option autoImplicit false

namespace ElfLens

open FieldReader

section Spelling

variable {bytes : List UInt8}

/-- Enough bytes start with a number of the width. -/
theorem Endian.exists_spell (order : Endian) {width : Nat} (enough : width ≤ bytes.length) :
    ∃ n rest, n < capacity width ∧ bytes = order.spell width n ++ rest ∧
      bytes.length = width + rest.length := by
  have length : (bytes.take width).length = width := List.length_take_of_le enough
  have bound := order.value_lt (bytes.take width)
  have whole := order.spell_value (bytes.take width)
  rw [length] at bound whole
  refine ⟨order.value (bytes.take width), bytes.drop width, bound, ?_, ?_⟩
  · rw [whole, List.take_append_drop]
  · rw [List.length_drop]
    omega

theorem Endian.exists_spell16 (order : Endian) (enough : 2 ≤ bytes.length) :
    ∃ value rest, bytes = order.spell16 value ++ rest ∧ bytes.length = 2 + rest.length := by
  obtain ⟨n, rest, bound, parts, length⟩ := order.exists_spell enough
  refine ⟨n.toUInt16, rest, ?_, length⟩
  rw [spell16, UInt16.toNat_ofNat_of_lt' bound, parts]

theorem Endian.exists_spell32 (order : Endian) (enough : 4 ≤ bytes.length) :
    ∃ value rest, bytes = order.spell32 value ++ rest ∧ bytes.length = 4 + rest.length := by
  obtain ⟨n, rest, bound, parts, length⟩ := order.exists_spell enough
  refine ⟨n.toUInt32, rest, ?_, length⟩
  rw [spell32, UInt32.toNat_ofNat_of_lt' bound, parts]

theorem Layout.exists_spellWord (layout : Layout) (enough : layout.wordSize ≤ bytes.length) :
    ∃ value rest, layout.Holds value ∧ bytes = layout.spellWord value ++ rest ∧
      bytes.length = layout.wordSize + rest.length := by
  obtain ⟨n, rest, bound, parts, length⟩ := layout.order.exists_spell enough
  have small : n < UInt64.size := by
    apply Nat.lt_of_lt_of_le bound
    unfold wordSize Class.wordSize
    cases layout.wordClass <;> decide
  have whole : n.toUInt64.toNat = n := UInt64.toNat_ofNat_of_lt' small
  refine ⟨n.toUInt64, rest, ?_, ?_, length⟩
  · rw [Holds, whole]
    exact bound
  · rw [spellWord, whole, parts]

end Spelling

/-- The number that so many bytes from an offset on stand for. -/
def Layout.numberAt (layout : Layout) (data : Bytes) (offset width : Nat) : Nat :=
  layout.order.value (data.extract offset (offset + width)).toList

theorem Layout.numberAt_of_split (layout : Layout) {data : Bytes} {front rest : List UInt8}
    {offset : Nat} {value : UInt16}
    (whole : data.toList = front ++ (layout.order.spell16 value ++ rest))
    (place : front.length = offset) :
    layout.numberAt data offset 2 = value.toNat ∧
      (front ++ layout.order.spell16 value).length = offset + 2 ∧
      data.toList = (front ++ layout.order.spell16 value) ++ rest := by
  have length : (layout.order.spell16 value).length = 2 := Endian.length_spell ..
  have bound : value.toNat < Endian.capacity 2 := value.toNat_lt
  refine ⟨?_, by rw [List.length_append, place, length], by rw [whole, List.append_assoc]⟩
  rw [numberAt, Bytes.toList_extract_add, whole, ← place, List.drop_left, List.take_left' length,
    Endian.spell16, Endian.value_spell_of_lt _ bound]

/-- Where the file header gives its own size, which the sizes and the counts of the two tables of
records follow. -/
def Layout.sizesAt (layout : Layout) : Nat := 28 + 3 * layout.wordSize

namespace Ident

/-- The identification bytes that say something. -/
def front (ident : Ident) : List UInt8 :=
  signature.toList ++
    [ident.wordClass.code, ident.order.code, ident.version, ident.abi, ident.abiVersion]

theorem encode_eq (ident : Ident) : ident.encode = ident.front ++ List.replicate 7 0 := rfl

/-- The signature and enough bytes behind it are five codes, seven bytes that say nothing, and
whatever follows. -/
theorem exists_codes {data : Bytes} (signed : data.extract 0 4 = signature)
    (whole : byteSize ≤ data.size) :
    ∃ c o version abi abiVersion blank rest, blank.length = 7 ∧
      data.toList = signature.toList ++ ([c, o, version, abi, abiVersion] ++ (blank ++ rest)) ∧
      data[4]? = some c ∧ data[5]? = some o := by
  have size : 16 ≤ data.toList.length := by rwa [Array.length_toList]
  have first : data.toList.take 4 = signature.toList := by
    rw [← signed, Bytes.toList_extract_front]
  have five : ((data.toList.drop 4).take 5).length = 5 := by
    rw [List.length_take, List.length_drop]
    omega
  obtain ⟨c, o, version, abi, abiVersion, codes⟩ : ∃ c o version abi abiVersion,
      (data.toList.drop 4).take 5 = [c, o, version, abi, abiVersion] := by
    match (data.toList.drop 4).take 5, five with
    | [c, o, version, abi, abiVersion], _ => exact ⟨c, o, version, abi, abiVersion, rfl⟩
  have parts : data.toList = signature.toList ++ ([c, o, version, abi, abiVersion] ++
      ((data.toList.drop 9).take 7 ++ data.toList.drop 16)) := by
    have behind : (data.toList.drop 9).drop 7 = data.toList.drop 16 := by rw [List.drop_drop]
    have between : (data.toList.drop 4).drop 5 = data.toList.drop 9 := by rw [List.drop_drop]
    rw [← first, ← codes, ← behind, List.take_append_drop, ← between, List.take_append_drop,
      List.take_append_drop]
  refine ⟨c, o, version, abi, abiVersion, (data.toList.drop 9).take 7, data.toList.drop 16, ?_,
    parts, ?_, ?_⟩
  · rw [List.length_take, List.length_drop]
    omega
  · rw [← Array.getElem?_toList, parts]
    rfl
  · rw [← Array.getElem?_toList, parts]
    rfl

/-- Behind the signature, the codes of the class and the byte order decide. -/
theorem decode_of_codes {data : Bytes} {c o version abi abiVersion : UInt8}
    {blank rest : List UInt8} (seven : blank.length = 7)
    (whole : data.toList =
      signature.toList ++ ([c, o, version, abi, abiVersion] ++ (blank ++ rest))) :
    decode data = (do
      let wordClass ← Class.ofCode? c
      let order ← Endian.ofCode? o
      return { wordClass, order, version, abi, abiVersion }) := by
  have size : data.size = 16 + rest.length := by
    rw [← Array.length_toList, whole]
    simp only [List.length_append, List.length_cons, List.length_nil, seven]
    change 4 + (5 + (7 + rest.length)) = _
    omega
  have signed : isSigned data := by
    apply isSigned_iff.mpr
    apply Array.toList_inj.mp
    rw [Bytes.toList_extract_front, whole]
    rfl
  have front : (data.extract 0 byteSize).toList =
      signature.toList ++ c :: o :: version :: abi :: abiVersion :: blank := by
    have length : (signature.toList ++ ([c, o, version, abi, abiVersion] ++ blank)).length = 16 := by
      rw [List.length_append, List.length_append, seven]
      rfl
    have parts : data.toList =
        signature.toList ++ ([c, o, version, abi, abiVersion] ++ blank) ++ rest := by
      simp only [whole, List.append_assoc]
    rw [Bytes.toList_extract_front, parts, byteSize, List.take_left' length]
    rfl
  have read : fields.run ⟨0, signature.toList ++ c :: o :: version :: abi :: abiVersion :: blank⟩ =
      (do
        let wordClass ← Class.ofCode? c
        let order ← Endian.ofCode? o
        return ({ wordClass, order, version, abi, abiVersion }, ⟨9, blank⟩)) := by
    have four : (bytes 4).Reads signature.toList signature.toList := reads_bytes signature.toList
    unfold fields
    rw [run_bind_of_ok (four 0 _), run_bind_of_ok (u8_spell c _ _),
      run_bind_of_ok (u8_spell o _ _), run_bind_of_ok (u8_spell version _ _),
      run_bind_of_ok (u8_spell abi _ _), run_bind_of_ok (u8_spell abiVersion _ _)]
    cases Class.ofCode? c <;> cases Endian.ofCode? o <;> rfl
  have long : ¬ data.size < byteSize := by
    rw [byteSize]
    omega
  rw [decode, if_neg fun foreign => foreign.2 signed, if_neg long, FieldReader.decode, StateT.run',
    front]
  change Prod.fst <$> fields.run _ = _
  rw [read]
  cases Class.ofCode? c <;> cases Endian.ofCode? o <;> rfl

end Ident

namespace FileHeader

/-- The bytes of the fields behind the identification. -/
def encodeFields (header : FileHeader) : List UInt8 :=
  let word := header.layout.spellWord
  let half := header.ident.order.spell32
  let quarter := header.ident.order.spell16
  quarter header.typeCode ++ (quarter header.machineCode ++ (half header.version ++
    (word header.entry ++ (word header.segmentOffset ++ (word header.sectionOffset ++
      (half header.flags ++ (quarter header.headerSize ++ (quarter header.segmentStride ++
        (quarter header.segmentCount ++ (quarter header.sectionStride ++
          (quarter header.sectionCount ++ quarter header.nameSection)))))))))))

theorem encode_eq (header : FileHeader) :
    header.encode =
      header.ident.front ++ (List.replicate 7 0 ++ header.encodeFields) := by
  rw [encode, Ident.encode_eq]
  simp only [encodeFields, List.append_assoc]

theorem headerSize_eq (layout : Layout) : layout.headerSize = 40 + 3 * layout.wordSize := by
  unfold Layout.headerSize Layout.wordSize Class.wordSize
  cases layout.wordClass <;> rfl

theorem length_encodeFields (header : FileHeader) :
    Ident.byteSize + header.encodeFields.length = header.layout.headerSize := by
  simp only [encodeFields, List.length_append, Endian.spell16, Endian.spell32,
    Endian.length_spell, Layout.length_spellWord, headerSize_eq, Ident.byteSize]
  omega

theorem length_encode (header : FileHeader) :
    header.encode.length = header.layout.headerSize := by
  have nine : header.ident.front.length = 9 := rfl
  have fields := header.length_encodeFields
  rw [Ident.byteSize] at fields
  rw [encode_eq, List.length_append, List.length_append, nine, List.length_replicate]
  omega

theorem reads_encodeFields {header : FileHeader} (fits : header.Fits) :
    (fields header.ident).Reads header.encodeFields header := by
  have entry : header.layout.Holds header.entry := fits _ (by simp)
  have segments : header.layout.Holds header.segmentOffset := fits _ (by simp)
  have sections : header.layout.Holds header.sectionOffset := fits _ (by simp)
  let order := header.ident.order
  unfold fields encodeFields
  apply (reads_u16 order header.typeCode).bind
  apply (reads_u16 order header.machineCode).bind
  apply (reads_u32 order header.version).bind
  apply (reads_word entry).bind
  apply (reads_word segments).bind
  apply (reads_word sections).bind
  apply (reads_u32 order header.flags).bind
  apply (reads_u16 order header.headerSize).bind
  apply (reads_u16 order header.segmentStride).bind
  apply (reads_u16 order header.segmentCount).bind
  apply (reads_u16 order header.sectionStride).bind
  apply (reads_u16 order header.sectionCount).bind
  exact (reads_u16 order header.nameSection).map _

/-- Any bytes of the right number are the fields of a header. -/
theorem exists_encodeFields (ident : Ident) {bytes : List UInt8}
    (length : Ident.byteSize + bytes.length = ident.layout.headerSize) :
    ∃ header : FileHeader, header.ident = ident ∧ header.Fits ∧ header.encodeFields = bytes := by
  rw [headerSize_eq, Ident.byteSize] at length
  obtain ⟨typeCode, bytes, rfl, l⟩ := ident.order.exists_spell16 (by omega : 2 ≤ bytes.length)
  obtain ⟨machineCode, bytes, rfl, l⟩ := ident.order.exists_spell16 (by omega : 2 ≤ bytes.length)
  obtain ⟨version, bytes, rfl, l⟩ := ident.order.exists_spell32 (by omega : 4 ≤ bytes.length)
  obtain ⟨entry, bytes, held, rfl, l⟩ :=
    ident.layout.exists_spellWord (by omega : ident.layout.wordSize ≤ bytes.length)
  obtain ⟨segmentOffset, bytes, held', rfl, l⟩ :=
    ident.layout.exists_spellWord (by omega : ident.layout.wordSize ≤ bytes.length)
  obtain ⟨sectionOffset, bytes, held'', rfl, l⟩ :=
    ident.layout.exists_spellWord (by omega : ident.layout.wordSize ≤ bytes.length)
  obtain ⟨flags, bytes, rfl, l⟩ := ident.order.exists_spell32 (by omega : 4 ≤ bytes.length)
  obtain ⟨headerSize, bytes, rfl, l⟩ := ident.order.exists_spell16 (by omega : 2 ≤ bytes.length)
  obtain ⟨segmentStride, bytes, rfl, l⟩ := ident.order.exists_spell16 (by omega : 2 ≤ bytes.length)
  obtain ⟨segmentCount, bytes, rfl, l⟩ := ident.order.exists_spell16 (by omega : 2 ≤ bytes.length)
  obtain ⟨sectionStride, bytes, rfl, l⟩ := ident.order.exists_spell16 (by omega : 2 ≤ bytes.length)
  obtain ⟨sectionCount, bytes, rfl, l⟩ := ident.order.exists_spell16 (by omega : 2 ≤ bytes.length)
  obtain ⟨nameSection, bytes, rfl, l⟩ := ident.order.exists_spell16 (by omega : 2 ≤ bytes.length)
  have none : bytes = [] := List.eq_nil_of_length_eq_zero (by omega)
  let header : FileHeader := {
    ident, typeCode, machineCode, version, entry, segmentOffset, sectionOffset, flags, headerSize,
    segmentStride, segmentCount, sectionStride, sectionCount, nameSection }
  refine ⟨header, rfl, ?_, ?_⟩
  · intro field listed
    simp only [List.mem_cons, List.not_mem_nil, or_false] at listed
    rcases listed with rfl | rfl | rfl
    · exact held
    · exact held'
    · exact held''
  · rw [none, List.append_nil]
    rfl

/-- The data starts with the header, whatever stands in the seven bytes that say nothing. -/
def IsHeadOf (header : FileHeader) (data : Bytes) : Prop :=
  ∃ blank rest, blank.length = 7 ∧
    data.toList = header.ident.front ++ (blank ++ (header.encodeFields ++ rest))

section Head

variable {header : FileHeader} {data : Bytes}

/-- Only the demands on its sizes can keep a header from being accepted. -/
theorem decode_of_isHeadOf (fits : header.Fits) (head : header.IsHeadOf data) :
    decode data = match header.defect? with
      | some defect => .error (.malformedHeader defect)
      | none => .ok header := by
  obtain ⟨blank, rest, seven, whole⟩ := head
  have prefixed : (header.ident.front ++ blank).length = 16 := by
    rw [List.length_append, seven]
    rfl
  have parts : data.toList = header.ident.front ++ blank ++ header.encodeFields ++ rest := by
    simp only [whole, List.append_assoc]
  have width : (header.ident.front ++ blank ++ header.encodeFields).length =
      header.layout.headerSize := by
    rw [List.length_append, prefixed]
    exact header.length_encodeFields
  have long : ¬ data.size < header.layout.headerSize := by
    rw [← Array.length_toList, parts, List.length_append, width]
    omega
  have named : Ident.decode data = .ok header.ident := by
    have codes : data.toList = Ident.signature.toList ++ ([header.ident.wordClass.code,
        header.ident.order.code, header.ident.version, header.ident.abi,
        header.ident.abiVersion] ++ (blank ++ (header.encodeFields ++ rest))) := by
      simp only [whole, Ident.front, List.append_assoc]
    rw [Ident.decode_of_codes seven codes, Class.ofCode?_code, Endian.ofCode?_code]
    rfl
  have read : (fields header.ident).decodeAt (data.extract 0 header.layout.headerSize)
      Ident.byteSize = .ok header := by
    apply decodeAt_of_reads (reads_encodeFields fits)
    rw [Bytes.toList_extract_front, parts, List.take_left' width, Ident.byteSize,
      List.drop_left' prefixed, List.append_nil]
  rw [decode, named]
  change (if data.size < header.layout.headerSize then _ else _) = _
  rw [if_neg long]
  change ((fields header.ident).decodeAt (data.extract 0 header.layout.headerSize) _ >>= _) = _
  rw [read]
  change (match header.defect? with
    | some defect => throw (Fault.malformedHeader defect)
    | none => pure header) = _
  cases header.defect? <;> rfl

/-- The sizes and the counts stand one after the other, behind everything of another width. -/
theorem numberAt_of_isHeadOf (head : header.IsHeadOf data) :
    let sizes := header.layout.sizesAt
    header.layout.numberAt data sizes 2 = header.headerSize.toNat ∧
    header.layout.numberAt data (sizes + 2) 2 = header.segmentStride.toNat ∧
    header.layout.numberAt data (sizes + 4) 2 = header.segmentCount.toNat ∧
    header.layout.numberAt data (sizes + 6) 2 = header.sectionStride.toNat ∧
    header.layout.numberAt data (sizes + 8) 2 = header.sectionCount.toNat := by
  obtain ⟨blank, rest, seven, whole⟩ := head
  let layout := header.layout
  let quarter := layout.order.spell16
  let half := layout.order.spell32
  let word := layout.spellWord
  let front := header.ident.front ++ (blank ++ (quarter header.typeCode ++
    (quarter header.machineCode ++ (half header.version ++ (word header.entry ++
      (word header.segmentOffset ++ (word header.sectionOffset ++ half header.flags)))))))
  have place : front.length = layout.sizesAt := by
    have nine : header.ident.front.length = 9 := rfl
    simp only [front, quarter, half, word, List.length_append, Endian.spell16, Endian.spell32,
      Endian.length_spell, Layout.length_spellWord, seven, nine, Layout.sizesAt]
    omega
  have first : data.toList = front ++ (layout.order.spell16 header.headerSize ++
      (quarter header.segmentStride ++ (quarter header.segmentCount ++
        (quarter header.sectionStride ++ (quarter header.sectionCount ++
          (quarter header.nameSection ++ rest)))))) := by
    simp only [whole, encodeFields, front, quarter, half, word, List.append_assoc]
    rfl
  obtain ⟨ownSize, place, second⟩ := layout.numberAt_of_split first place
  obtain ⟨segmentStride, place, third⟩ := layout.numberAt_of_split second place
  obtain ⟨segmentCount, place, fourth⟩ := layout.numberAt_of_split third place
  obtain ⟨sectionStride, place, fifth⟩ := layout.numberAt_of_split fourth place
  obtain ⟨sectionCount, place, -⟩ := layout.numberAt_of_split fifth place
  exact ⟨ownSize, segmentStride, segmentCount, sectionStride, sectionCount⟩

/-- The header is written back to the bytes it was read from, but for those that say nothing. -/
theorem getElem?_encode_of_isHeadOf (head : header.IsHeadOf data) {place : Nat}
    (inside : place < header.layout.headerSize) (said : place < 9 ∨ Ident.byteSize ≤ place) :
    header.encode[place]? = data[place]? := by
  obtain ⟨blank, rest, seven, parts⟩ := head
  have nine : header.ident.front.length = 9 := rfl
  have none : (List.replicate 7 (0 : UInt8)).length = 7 := List.length_replicate
  have fields := header.length_encodeFields
  rw [Ident.byteSize] at said fields
  rw [← Array.getElem?_toList, parts, encode_eq]
  by_cases early : place < 9
  · rw [List.getElem?_append_left (nine ▸ early), List.getElem?_append_left (nine ▸ early)]
  · have late : 16 ≤ place := by omega
    rw [List.getElem?_append_right (by omega), List.getElem?_append_right (by omega),
      List.getElem?_append_right (by omega), List.getElem?_append_right (by omega), none, seven,
      List.getElem?_append_left (by omega)]

end Head

end FileHeader
end ElfLens
