import ElfLens.FieldReader
/-!
What a reader of fields makes of the bytes in front of it, whatever follows them. A reader of a
packed record is put together from readers of single fields, and so are its properties: which bytes
it reads as which value, how many bytes are enough for it, whether fewer would be, and what holds of
all it gives.
-/

set_option autoImplicit false

namespace ElfLens

namespace Bytes

theorem toList_extract_add (bytes : Bytes) (start length : Nat) :
    (bytes.extract start (start + length)).toList = (bytes.toList.drop start).take length := by
  rw [Array.toList_extract, List.extract_eq_take_drop, Nat.add_sub_cancel_left]

theorem toList_extract_front (bytes : Bytes) (count : Nat) :
    (bytes.extract 0 count).toList = bytes.toList.take count := by
  rw [Array.toList_extract, List.extract_eq_take_drop, List.drop_zero, Nat.sub_zero]

theorem toList_extract_from (bytes : Bytes) (start : Nat) :
    (bytes.extract start).toList = bytes.toList.drop start := by
  rw [Array.toList_extract, List.extract_eq_take_drop, List.take_of_length_le (by simp)]

end Bytes

namespace FieldReader

variable {α β : Type}

/-- The reader takes these bytes off the front of a record and gives this value. -/
def Reads (reader : FieldReader α) (front : List UInt8) (value : α) : Prop :=
  ∀ offset rest, reader.run ⟨offset, front ++ rest⟩ = .ok (value, ⟨offset + front.length, rest⟩)

/-- So many bytes are what the reader takes, and no bytes of that number are refused. -/
def Takes (reader : FieldReader α) (width : Nat) : Prop :=
  ∀ front : List UInt8, front.length = width → ∃ value, reader.Reads front value

/-- So many bytes are what the reader takes, and fewer are refused. -/
structure Exactly (reader : FieldReader α) (width : Nat) : Prop where
  takes : reader.Takes width
  lacks : ∀ cursor : Cursor, cursor.rest.length < width → ∃ fault, reader.run cursor = .error fault

/-- Whatever the reader gives has the property. -/
def Ensures (reader : FieldReader α) (property : α → Prop) : Prop :=
  ∀ cursor value rest, reader.run cursor = .ok (value, rest) → property value

theorem run_bind_of_ok {reader : FieldReader α} {next : α → FieldReader β} {cursor after : Cursor}
    {value : α} (success : reader.run cursor = .ok (value, after)) :
    (reader >>= next).run cursor = (next value).run after := by
  rw [StateT.run_bind, success]
  rfl

theorem Reads.pure (value : α) : (pure value : FieldReader α).Reads [] value := fun _ _ => rfl

theorem Reads.bind {reader : FieldReader α} {next : α → FieldReader β} {front back : List UInt8}
    {value : α} {result : β} (first : reader.Reads front value)
    (second : (next value).Reads back result) : (reader >>= next).Reads (front ++ back) result := by
  intro offset rest
  rw [List.append_assoc, run_bind_of_ok (first offset (back ++ rest)), second, List.length_append,
    Nat.add_assoc]

theorem Reads.map {reader : FieldReader α} {front : List UInt8} {value : α} (f : α → β)
    (first : reader.Reads front value) :
    (reader >>= fun read => Pure.pure (f read)).Reads front (f value) := by
  intro offset rest
  rw [run_bind_of_ok (first offset rest)]
  rfl

theorem Takes.pure (value : α) : (pure value : FieldReader α).Takes 0 := by
  intro front empty
  obtain rfl := List.eq_nil_of_length_eq_zero empty
  exact ⟨value, Reads.pure value⟩

theorem Takes.bind {reader : FieldReader α} {next : α → FieldReader β} {width more : Nat}
    (first : reader.Takes width) (second : ∀ value, (next value).Takes more) :
    (reader >>= next).Takes (width + more) := by
  intro bytes length
  have shorter : (bytes.take width).length = width := List.length_take_of_le (by omega)
  have left : (bytes.drop width).length = more := by
    rw [List.length_drop]
    omega
  obtain ⟨value, read⟩ := first _ shorter
  obtain ⟨result, later⟩ := second value _ left
  refine ⟨result, ?_⟩
  rw [← List.take_append_drop width bytes]
  exact read.bind later

theorem Exactly.pure (value : α) : (pure value : FieldReader α).Exactly 0 :=
  ⟨Takes.pure value, fun _ short => absurd short (Nat.not_lt_zero _)⟩

theorem Exactly.bind {reader : FieldReader α} {next : α → FieldReader β} {width more : Nat}
    (first : reader.Exactly width) (second : ∀ value, (next value).Exactly more) :
    (reader >>= next).Exactly (width + more) := by
  refine ⟨first.takes.bind fun value => (second value).takes, ?_⟩
  intro cursor short
  by_cases none : cursor.rest.length < width
  · obtain ⟨fault, refused⟩ := first.lacks cursor none
    refine ⟨fault, ?_⟩
    rw [StateT.run_bind, refused]
    rfl
  · have shorter : (cursor.rest.take width).length = width := List.length_take_of_le (by omega)
    have left : (cursor.rest.drop width).length < more := by
      rw [List.length_drop]
      omega
    obtain ⟨value, read⟩ := first.takes _ shorter
    have taken := read cursor.offset (cursor.rest.drop width)
    rw [List.take_append_drop] at taken
    obtain ⟨fault, refused⟩ :=
      (second value).lacks ⟨cursor.offset + (cursor.rest.take width).length, _⟩ left
    exact ⟨fault, (run_bind_of_ok taken).trans refused⟩

theorem Exactly.map {reader : FieldReader α} {width : Nat} (f : α → β)
    (first : reader.Exactly width) :
    (reader >>= fun read => Pure.pure (f read)).Exactly width :=
  first.bind fun value => Exactly.pure (f value)

theorem Ensures.pure {property : α → Prop} {value : α} (holds : property value) :
    (pure value : FieldReader α).Ensures property := by
  intro cursor given rest success
  cases success
  exact holds

theorem Ensures.bind {reader : FieldReader α} {next : α → FieldReader β} {property : β → Prop}
    (later : ∀ value, (next value).Ensures property) : (reader >>= next).Ensures property := by
  intro cursor given rest success
  rw [StateT.run_bind] at success
  cases first : reader.run cursor with
  | error fault =>
      rw [first] at success
      cases success
  | ok read =>
      rw [first] at success
      exact later read.1 read.2 given rest success

theorem reads_bytes (front : List UInt8) : (bytes front.length).Reads front front :=
  fun offset rest => bytes_append front rest offset

theorem takes_bytes (width : Nat) : (bytes width).Takes width := by
  rintro front rfl
  exact ⟨front, reads_bytes front⟩

theorem reads_u8 (value : UInt8) : u8.Reads [value] value :=
  fun offset rest => u8_spell value rest offset

theorem reads_u16 (order : Endian) (value : UInt16) :
    (u16 order).Reads (order.spell16 value) value := by
  intro offset rest
  rw [Endian.spell16, Endian.length_spell]
  exact u16_spell order value rest offset

theorem reads_u32 (order : Endian) (value : UInt32) :
    (u32 order).Reads (order.spell32 value) value := by
  intro offset rest
  rw [Endian.spell32, Endian.length_spell]
  exact u32_spell order value rest offset

theorem reads_u64 (order : Endian) (value : UInt64) :
    (u64 order).Reads (order.spell 8 value.toNat) value := by
  intro offset rest
  rw [Endian.length_spell]
  exact u64_spell order value rest offset

theorem reads_word {layout : Layout} {value : UInt64} (held : layout.Holds value) :
    (word layout).Reads (layout.spellWord value) value := by
  intro offset rest
  rw [Layout.length_spellWord]
  exact word_spellWord held rest offset

/-- The low half of a signed number that fits into it is the number. -/
theorem toInt64_low_half (value : Int64) (least : Int32.minValue.toInt ≤ value.toInt)
    (most : value.toInt ≤ Int32.maxValue.toInt) :
    value.toUInt64.toUInt32.toInt32.toInt64 = value := by
  have low : value.toUInt64.toUInt32.toInt32 = value.toInt32 := by
    apply Int32.toBitVec_inj.mp
    change value.toBitVec.setWidth 32 = value.toBitVec.signExtend 32
    rw [BitVec.signExtend_eq_setWidth_of_le _ (by decide)]
  apply Int64.toInt_inj.mp
  rw [low, Int32.toInt_toInt64, Int64.toInt_toInt32]
  have least' : (-2147483648 : Int) ≤ value.toInt := least
  have most' : value.toInt ≤ (2147483647 : Int) := most
  apply Int.bmod_eq_of_le <;> omega

theorem reads_signedWord {layout : Layout} {value : Int64} (held : layout.HoldsSigned value) :
    (signedWord layout).Reads (layout.spellSigned value) value := by
  obtain ⟨wordClass, order⟩ := layout
  cases wordClass with
  | elf32 =>
      have narrow : order.spell 4 value.toUInt64.toNat = order.spell32 value.toUInt64.toUInt32 := by
        have whole := order.spell_value (order.spell 4 value.toUInt64.toNat)
        rw [Endian.length_spell, Endian.value_spell] at whole
        rw [Endian.spell32, UInt64.toNat_toUInt32]
        exact whole.symm
      have whole := ((reads_u32 order value.toUInt64.toUInt32).map UInt32.toInt32).map Int32.toInt64
      rw [toInt64_low_half value held.1 held.2, ← narrow] at whole
      exact whole
  | elf64 =>
      have whole := (reads_u64 order value.toUInt64).map UInt64.toInt64
      exact whole

theorem exactly_bytes (width : Nat) : (bytes width).Exactly width :=
  ⟨takes_bytes width, fun _ short => ⟨_, bytes_of_short short⟩⟩

theorem exactly_unsigned (order : Endian) (width : Nat) : (unsigned order width).Exactly width :=
  (exactly_bytes width).map order.value

theorem exactly_u8 : u8.Exactly 1 := (exactly_unsigned .little 1).map Nat.toUInt8

theorem exactly_u16 (order : Endian) : (u16 order).Exactly 2 :=
  (exactly_unsigned order 2).map Nat.toUInt16

theorem exactly_u32 (order : Endian) : (u32 order).Exactly 4 :=
  (exactly_unsigned order 4).map Nat.toUInt32

theorem exactly_u64 (order : Endian) : (u64 order).Exactly 8 :=
  (exactly_unsigned order 8).map Nat.toUInt64

theorem exactly_word (layout : Layout) : (word layout).Exactly layout.wordSize := by
  obtain ⟨wordClass, order⟩ := layout
  cases wordClass with
  | elf32 => exact (exactly_u32 order).map UInt32.toUInt64
  | elf64 => exact exactly_u64 order

theorem exactly_signedWord (layout : Layout) : (signedWord layout).Exactly layout.wordSize := by
  obtain ⟨wordClass, order⟩ := layout
  cases wordClass with
  | elf32 => exact ((exactly_u32 order).map UInt32.toInt32).map Int32.toInt64
  | elf64 => exact (exactly_u64 order).map UInt64.toInt64

/-- A record that starts with the bytes is decoded to the value that they are read as. -/
theorem decode_of_reads {reader : FieldReader α} {front rest : List UInt8} {value : α}
    {record : Bytes} (read : reader.Reads front value) (starts : record.toList = front ++ rest) :
    reader.decode record = .ok value := by
  rw [decode, StateT.run', starts]
  change Prod.fst <$> reader.run ⟨0, front ++ rest⟩ = .ok value
  rw [read 0 rest]
  rfl

theorem decodeAt_of_reads {reader : FieldReader α} {front rest : List UInt8} {value : α}
    {data : Bytes} {offset : Nat} (read : reader.Reads front value)
    (starts : data.toList.drop offset = front ++ rest) :
    reader.decodeAt data offset = .ok value := by
  rw [decodeAt, StateT.run', Bytes.toList_extract_from, starts]
  change Prod.fst <$> reader.run ⟨offset, front ++ rest⟩ = .ok value
  rw [read offset rest]
  rfl

/-- A number is read in place or, if the bytes do not reach so far, not at all. -/
theorem decodeAt_unsigned (order : Endian) {data : Bytes} {offset width : Nat}
    (positive : 0 < width) :
    (unsigned order width).decodeAt data offset =
      match data.slice? offset width with
      | some part => .ok (order.value part.toList)
      | none => .error (.truncatedTable offset width) := by
  have length : (data.toList.drop offset).length = data.size - offset := by
    rw [List.length_drop, Array.length_toList]
  by_cases inside : offset + width ≤ data.size
  · have front : ((data.toList.drop offset).take width).length = width :=
      List.length_take_of_le (by omega)
    have read := (reads_bytes ((data.toList.drop offset).take width)).map order.value
    rw [front] at read
    rw [Bytes.slice?, if_pos inside]
    change _ = Except.ok (order.value (data.extract offset (offset + width)).toList)
    rw [Bytes.toList_extract_add]
    exact decodeAt_of_reads read (List.take_append_drop width _).symm
  · have short : (data.toList.drop offset).length < width := by omega
    rw [decodeAt, StateT.run', Bytes.toList_extract_from, Bytes.slice?, if_neg inside]
    change Prod.fst <$> (unsigned order width).run ⟨offset, data.toList.drop offset⟩ = _
    rw [unsigned_of_short short]
    rfl

/-- A record that is long enough is decoded. -/
theorem exists_decode_of_takes {reader : FieldReader α} {width : Nat} {record : Bytes}
    (takes : reader.Takes width) (long : width ≤ record.size) :
    ∃ value, reader.decode record = .ok value := by
  have length : (record.toList.take width).length = width :=
    List.length_take_of_le (by rwa [Array.length_toList])
  obtain ⟨value, read⟩ := takes _ length
  exact ⟨value, decode_of_reads read (List.take_append_drop width record.toList).symm⟩

/-- What is decoded depends on no byte behind those that the reader takes. -/
theorem decode_congr {reader : FieldReader α} {width : Nat} {record other : Bytes}
    (takes : reader.Takes width) (long : width ≤ record.size)
    (same : other.toList.take width = record.toList.take width) :
    reader.decode other = reader.decode record := by
  have length : (record.toList.take width).length = width :=
    List.length_take_of_le (by rwa [Array.length_toList])
  obtain ⟨value, read⟩ := takes _ length
  have here := decode_of_reads read (List.take_append_drop width record.toList).symm
  have there := decode_of_reads (same ▸ read) (List.take_append_drop width other.toList).symm
  rw [here, there]

/-- A record that is too short is not decoded. -/
theorem exists_error_of_exactly {reader : FieldReader α} {width : Nat} {record : Bytes}
    (exactly : reader.Exactly width) (short : record.size < width) :
    ∃ fault, reader.decode record = .error fault := by
  obtain ⟨fault, refused⟩ := exactly.lacks ⟨0, record.toList⟩ (by rwa [Array.length_toList])
  refine ⟨fault, ?_⟩
  rw [decode, StateT.run']
  change Prod.fst <$> reader.run ⟨0, record.toList⟩ = .error fault
  rw [refused]
  rfl

theorem property_of_run {reader : FieldReader α} {property : α → Prop} {cursor : Cursor} {value : α}
    (ensures : reader.Ensures property) (success : reader.run' cursor = .ok value) :
    property value := by
  rw [StateT.run'] at success
  change Prod.fst <$> reader.run cursor = .ok value at success
  cases first : reader.run cursor with
  | error fault =>
      rw [first] at success
      cases success
  | ok read =>
      rw [first] at success
      cases success
      exact ensures _ read.1 read.2 first

theorem property_of_decode {reader : FieldReader α} {property : α → Prop} {record : Bytes}
    {value : α} (ensures : reader.Ensures property) (success : reader.decode record = .ok value) :
    property value := property_of_run ensures success

theorem property_of_decodeAt {reader : FieldReader α} {property : α → Prop} {data : Bytes}
    {offset : Nat} {value : α} (ensures : reader.Ensures property)
    (success : reader.decodeAt data offset = .ok value) : property value :=
  property_of_run ensures success

end FieldReader

end ElfLens
