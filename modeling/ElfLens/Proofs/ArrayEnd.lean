import ElfLens.Proofs.MappedSpace
import ElfLens.Proofs.MissingTables

set_option autoImplicit false

namespace ElfLens

/-- Whatever the class has no room for makes no difference to the bytes of a word. -/
theorem Layout.exists_holds_of_spellWord (layout : Layout) (word : UInt64) :
    ∃ held, layout.Holds held ∧ layout.spellWord held = layout.spellWord word := by
  have bound := layout.order.value_lt (layout.spellWord word)
  have spelled := layout.order.spell_value (layout.spellWord word)
  rw [length_spellWord] at bound spelled
  have room : Endian.capacity layout.wordSize ≤ UInt64.size := by
    unfold wordSize Class.wordSize
    cases layout.wordClass <;> decide
  have kept : (layout.order.value (layout.spellWord word)).toUInt64.toNat =
      layout.order.value (layout.spellWord word) :=
    UInt64.toNat_ofNat_of_lt' (Nat.lt_of_lt_of_le bound room)
  refine ⟨(layout.order.value (layout.spellWord word)).toUInt64, ?_, ?_⟩
  · rw [Holds, kept]
    exact bound
  · rw [spellWord, kept, spelled]

namespace DynamicEntry

section RoundTrip

variable {layout : Layout} {entries : List DynamicEntry}

/-- The value that the null tag carries is of no account, whether the class has room for it or
not. -/
theorem decodeArray_of_terminated (fits : ∀ entry ∈ entries, entry.Fits layout)
    (named : ∀ entry ∈ entries, entry.tag ≠ DynamicTag.null) (last : UInt64) (rest : List UInt8) :
    decodeArray layout (encodeArray layout entries last rest).toArray = entries := by
  obtain ⟨held, holds, spelled⟩ := layout.exists_holds_of_spellWord last
  have same : encode layout ⟨DynamicTag.null, last⟩ = encode layout ⟨DynamicTag.null, held⟩ := by
    rw [encode, encode, spelled]
  have bytes : encodeArray layout entries last rest = encodeArray layout entries held rest := by
    simp only [encodeArray, List.flatMap_append, List.flatMap_singleton, same]
  rw [bytes]
  exact decodeArray_encodeArray fits named holds

/-- Without a null tag, the array ends where no further entry is whole. -/
theorem decodeArray_of_unterminated (fits : ∀ entry ∈ entries, entry.Fits layout)
    (named : ∀ entry ∈ entries, entry.tag ≠ DynamicTag.null) {tail : List UInt8}
    (short : tail.length < layout.dynamicSize) :
    decodeArray layout (entries.flatMap (encode layout) ++ tail).toArray = entries := by
  let table : Table := ⟨(entries.flatMap (encode layout) ++ tail).toArray, layout.dynamicSize,
    layout, layout.dynamicSize_pos⟩
  have whole : table.size = entries.length := by
    have total : table.bytes.size = entries.length * layout.dynamicSize + tail.length := by
      rw [List.size_toArray, List.length_append, length_flatMap_of_even (length_encode layout)]
    rw [Table.size, total, Nat.mul_comm, Nat.mul_add_div layout.dynamicSize_pos,
      Nat.div_eq_of_lt short, Nat.add_zero]
  obtain ⟨more, decoded⟩ := Table.exists_filterMap_decode?_of_packed
    (show ∀ entry, (encode layout entry).length = table.stride from length_encode layout) rfl
    fun entry listed => reads_fields (fits entry listed).1 (fits entry listed).2
  have none : more = [] := by
    have bound := List.length_filterMap_le (table.decode? (fields layout)) (List.range table.size)
    rw [decoded, List.length_append, List.length_range, whole] at bound
    exact List.eq_nil_of_length_eq_zero (by omega)
  rw [decodeArray, Table.make?, dif_pos layout.dynamicSize_pos]
  change ((List.range table.size).filterMap (table.decode? (fields layout))).takeWhile _ = entries
  rw [decoded, none, List.takeWhile_append_of_pos (by simpa using named), List.takeWhile_nil,
    List.append_nil]

end RoundTrip

section Cut

variable {reader : FieldReader DynamicEntry} {record : Bytes} {entry : DynamicEntry}

theorem upToNull_of_null (decoded : reader.decode record = .ok entry)
    (null : entry.tag = DynamicTag.null) (rest : List Bytes) :
    upToNull reader (record :: rest) = .ok [] := by
  rw [upToNull, decoded]
  exact if_pos null

theorem upToNull_of_named (decoded : reader.decode record = .ok entry)
    (named : entry.tag ≠ DynamicTag.null) (rest : List Bytes) :
    upToNull reader (record :: rest) = (entry :: ·) <$> upToNull reader rest := by
  rw [upToNull, decoded]
  exact if_neg named

/-- As many records hold the same entries if they are the same up to the one with the null tag, and
that one has the null tag too. -/
theorem upToNull_congr {records others : List Bytes} {entries : List DynamicEntry}
    (read : upToNull reader records = .ok entries) (length : others.length = records.length)
    (front : ∀ index < entries.length, others[index]? = records[index]?)
    (last : ∀ record other entry, records[entries.length]? = some record →
      others[entries.length]? = some other → reader.decode record = .ok entry →
      ∃ value, reader.decode other = .ok ⟨entry.tag, value⟩) :
    upToNull reader others = .ok entries := by
  induction records generalizing others entries with
  | nil =>
      obtain rfl := List.eq_nil_of_length_eq_zero length
      exact read
  | cons record records ih =>
      obtain ⟨other, others, rfl⟩ := List.exists_cons_of_length_eq_add_one length
      cases decoded : reader.decode record with
      | error fault =>
          rw [upToNull, decoded] at read
          cases read
      | ok entry =>
          by_cases null : entry.tag = DynamicTag.null
          · rw [upToNull_of_null decoded null, Except.ok.injEq] at read
            subst read
            obtain ⟨value, also⟩ := last record other entry rfl rfl decoded
            exact upToNull_of_null also null others
          · rw [upToNull_of_named decoded null] at read
            cases later : upToNull reader records with
            | error fault =>
                rw [later] at read
                cases read
            | ok rest =>
                rw [later] at read
                obtain rfl : entry :: rest = entries := Except.ok.inj read
                obtain rfl : other = record := Option.some.inj (front 0 (Nat.succ_pos _))
                rw [upToNull_of_named decoded null,
                  ih later (Nat.succ.inj length) (fun index inside =>
                    front (index + 1) (Nat.succ_lt_succ inside)) last]
                rfl

end Cut

section Congr

variable {layout : Layout}

/-- The first word of an entry is its tag, whatever the second one is. -/
theorem exists_decode_of_tag {record : Bytes} {tag : Int64}
    (size : record.size = layout.dynamicSize)
    (read : (FieldReader.signedWord layout).Reads (record.toList.take layout.wordSize) tag) :
    ∃ value, (fields layout).decode record = .ok ⟨tag, value⟩ := by
  have left : (record.toList.drop layout.wordSize).length = layout.wordSize := by
    rw [List.length_drop, Array.length_toList, size, layout.dynamicSize_eq, Nat.add_sub_cancel]
  obtain ⟨value, later⟩ := (FieldReader.exactly_word layout).takes _ left
  have whole : (fields layout).Reads
      (record.toList.take layout.wordSize ++ record.toList.drop layout.wordSize) ⟨tag, value⟩ :=
    read.bind (later.map fun value => DynamicEntry.mk tag value)
  rw [List.take_append_drop] at whole
  exact ⟨value, FieldReader.decode_of_reads whole (List.append_nil _).symm⟩

theorem exists_decode_of_same_word {record other : Bytes} {entry : DynamicEntry}
    (size : record.size = layout.dynamicSize) (size' : other.size = layout.dynamicSize)
    (same : other.toList.take layout.wordSize = record.toList.take layout.wordSize)
    (decoded : (fields layout).decode record = .ok entry) :
    ∃ value, (fields layout).decode other = .ok ⟨entry.tag, value⟩ := by
  have long : (record.toList.take layout.wordSize).length = layout.wordSize := by
    apply List.length_take_of_le
    rw [Array.length_toList, size, layout.dynamicSize_eq]
    exact Nat.le_add_right _ _
  obtain ⟨tag, read⟩ := (FieldReader.exactly_signedWord layout).takes _ long
  obtain ⟨value, whole⟩ := exists_decode_of_tag size read
  rw [decoded, Except.ok.injEq] at whole
  rw [whole]
  exact exists_decode_of_tag size' (same ▸ read)

/-- So many bytes hold the entries of an array and the null tag behind them. -/
def usedSize (layout : Layout) (bytes : Bytes) : Nat :=
  (decodeArray layout bytes).length * layout.dynamicSize + layout.wordSize

theorem readArray_eq_upToNull (layout : Layout) (bytes : Bytes) :
    readArray layout bytes = upToNull (fields layout)
      (Table.mk bytes layout.dynamicSize layout layout.dynamicSize_pos).records := by
  rw [readArray, Table.make?, dif_pos layout.dynamicSize_pos]
  rfl

/-- The entries of an array depend on no byte behind the first null tag. -/
theorem decodeArray_congr {bytes other : Bytes} (size : other.size = bytes.size)
    (same : ∀ place < usedSize layout bytes, other[place]? = bytes[place]?) :
    decodeArray layout other = decodeArray layout bytes := by
  have positive := layout.dynamicSize_pos
  let table : Table := ⟨bytes, layout.dynamicSize, layout, positive⟩
  let table' : Table := ⟨other, layout.dynamicSize, layout, positive⟩
  have length : table'.records.length = table.records.length := by
    rw [Table.length_records, Table.length_records, Table.size, Table.size]
    exact congrArg (· / layout.dynamicSize) size
  have listed : ∀ (table : Table) (index : Nat), table.records[index]? = table.record? index :=
    fun table => getElem?_filterMap_range_of_isSome_iff fun _ => Table.record?_isSome_iff
  have read := readArray_eq layout bytes
  have read' := readArray_eq layout other
  rw [readArray_eq_upToNull] at read read'
  apply Except.ok.inj
  rw [← read']
  apply upToNull_congr read length
  · intro index inside
    rw [listed, listed]
    apply Bytes.slice?_congr positive
    intro place _ below
    have front : index * layout.dynamicSize + layout.dynamicSize ≤
        (decodeArray layout bytes).length * layout.dynamicSize := by
      rw [← Nat.succ_mul]
      exact Nat.mul_le_mul_right _ inside
    exact same place (Nat.lt_of_lt_of_le below (Nat.le_trans front (Nat.le_add_right _ _)))
  · intro record record' entry found found' decoded
    rw [listed] at found found'
    apply exists_decode_of_same_word (Table.size_of_record? found) (Table.size_of_record? found')
      _ decoded
    apply Bytes.take_toList_congr
    intro place inside
    have below : place < layout.dynamicSize := by
      rw [layout.dynamicSize_eq]
      omega
    rw [Bytes.getElem?_of_slice? found below, Bytes.getElem?_of_slice? found' below]
    exact same _ (Nat.add_lt_add_left inside _)

end Congr
end DynamicEntry

/-- Two memories refuse the same reads in the same way, and answer the others with bytes that only
differ at spare places. -/
def Memory.DiffersOnlyAt (memory other : Memory) (spare : Nat → Prop) : Prop :=
  ∀ address length,
    (∃ fault, memory.read address length = .error fault ∧
      other.read address length = .error fault) ∨
    ∃ part counterpart, memory.read address length = .ok part ∧
      other.read address length = .ok counterpart ∧
      ∀ place, ¬ spare (address.toNat + place) → counterpart[place]? = part[place]?

namespace Memory

variable {memory other : Memory} {spare : Nat → Prop}

theorem DiffersOnlyAt.exists_read (differs : memory.DiffersOnlyAt other spare)
    {address length : UInt64} {part : Bytes} (read : memory.read address length = .ok part) :
    ∃ counterpart, other.read address length = .ok counterpart ∧ counterpart.size = part.size ∧
      ∀ place, ¬ spare (address.toNat + place) → counterpart[place]? = part[place]? := by
  rcases differs address length with ⟨fault, refused, -⟩ | ⟨whole, counterpart, given, also, same⟩
  · rw [read] at refused
    cases refused
  · rw [read, Except.ok.injEq] at given
    subst given
    refine ⟨counterpart, also, ?_, same⟩
    rw [other.size_of_read also, memory.size_of_read read]

/-- A read of no spare place gives the same from both memories. -/
theorem DiffersOnlyAt.read_eq (differs : memory.DiffersOnlyAt other spare)
    {address length : UInt64} (apart : ∀ place < length.toNat, ¬ spare (address.toNat + place)) :
    other.read address length = memory.read address length := by
  rcases differs address length with ⟨fault, refused, also⟩ | ⟨part, counterpart, read, also, same⟩
  · rw [refused, also]
  · rw [read, also, Except.ok.injEq]
    apply Array.ext_getElem?
    intro place
    by_cases inside : place < length.toNat
    · exact same place (apart place inside)
    · have long := memory.size_of_read read
      have long' := other.size_of_read also
      rw [Array.getElem?_eq_none (by omega), Array.getElem?_eq_none (by omega)]

theorem differsOnlyAt_ofBytes {base : UInt64} {bytes other : Bytes}
    (size : other.size = bytes.size)
    (same : ∀ place, ¬ spare (base.toNat + place) → other[place]? = bytes[place]?) :
    (ofBytes base bytes).DiffersOnlyAt (ofBytes base other) spare := by
  intro address length
  by_cases before : address < base
  · refine .inl ⟨.memoryRead address.toNat length.toNat, ?_, ?_⟩
    all_goals
      simp only [ofBytes, ofChunks, List.findSome?_cons, List.findSome?_nil, Chunk.read?,
        Word.minus?_eq_none_iff.mpr before, Option.bind_none]
  · obtain ⟨distance, place⟩ :=
      Nat.exists_eq_add_of_le (UInt64.le_iff_toNat_le.mp (UInt64.not_lt.mp before))
    rw [read_ofBytes place, read_ofBytes place]
    by_cases inside : distance + length.toNat ≤ bytes.size
    · have part := Bytes.slice?_eq_some_iff.mpr ⟨inside, rfl⟩
      have counterpart := Bytes.slice?_eq_some_iff.mpr ⟨size ▸ inside, rfl⟩
      rw [part, counterpart]
      refine .inr ⟨_, _, rfl, rfl, ?_⟩
      intro index kept
      by_cases within : index < length.toNat
      · rw [Bytes.getElem?_of_slice? part within, Bytes.getElem?_of_slice? counterpart within]
        apply same
        rwa [← Nat.add_assoc, ← place]
      · have long := Bytes.size_of_slice? part
        have long' := Bytes.size_of_slice? counterpart
        rw [Array.getElem?_eq_none (by omega), Array.getElem?_eq_none (by omega)]
    · rw [Bytes.slice?_eq_none_iff.mpr (by omega), Bytes.slice?_eq_none_iff.mpr (by omega)]
      exact .inl ⟨_, rfl, rfl⟩

end Memory

namespace AddressSpace

/-- Where in memory a range of addresses lies. -/
def position? (space : AddressSpace) (address length : UInt64) : Option UInt64 :=
  match space.placement with
  | .mapped _ _ _ => some address
  | .file _ _ => space.fileOffset? address length

def withMemory (space : AddressSpace) (memory : Memory) : AddressSpace := { space with memory }

/-- No byte of a range of addresses lies at a spare place. -/
def Avoids (space : AddressSpace) (spare : Nat → Prop) (address length : UInt64) : Prop :=
  ∀ position ∈ space.position? address length,
    ∀ place < length.toNat, ¬ spare (position.toNat + place)

theorem position?_mapped (memory : Memory) (base high : UInt64) (limits : Limits)
    (address length : UInt64) :
    (mapped memory base high limits).position? address length = some address := by
  unfold mapped position?
  by_cases ordered : base ≤ high <;> simp only [ordered, ↓reduceDIte]

theorem readTable_eq (space : AddressSpace) (address length : UInt64) :
    space.readTable address length =
      if space.limits.tableBytes < length then .error (.truncatedTable address.toNat length.toNat)
      else match space.position? address length with
        | some position => space.memory.read position length
        | none => .error (.truncatedTable address.toNat length.toNat) := by
  unfold readTable position?
  cases space.placement <;> rfl

theorem exists_position_of_readTable {space : AddressSpace} {address length : UInt64}
    {bytes : Bytes} (read : space.readTable address length = .ok bytes) :
    length ≤ space.limits.tableBytes ∧ ∃ position, space.position? address length = some position ∧
      space.memory.read position length = .ok bytes := by
  rw [readTable_eq] at read
  split at read
  · cases read
  · rename_i allowed
    refine ⟨UInt64.not_lt.mp allowed, ?_⟩
    cases place : space.position? address length with
    | none =>
        rw [place] at read
        cases read
    | some position =>
        rw [place] at read
        exact ⟨position, rfl, read⟩

section Congr

variable {space : AddressSpace} {other : Memory} {spare : Nat → Prop}

/-- A table that has no byte at a spare place is the same in both memories. -/
theorem readTable_withMemory (differs : space.memory.DiffersOnlyAt other spare)
    {address length : UInt64} (avoids : space.Avoids spare address length) :
    (space.withMemory other).readTable address length = space.readTable address length := by
  rw [readTable_eq, readTable_eq]
  change (if space.limits.tableBytes < length then _ else
    match space.position? address length with
    | some position => other.read position length
    | none => _) = _
  split
  · rfl
  · cases place : space.position? address length with
    | none => rfl
    | some position => exact differs.read_eq (avoids position place)

theorem tableAt?_withMemory (differs : space.memory.DiffersOnlyAt other spare)
    {location : TableLocation}
    (avoids : location.isPresent → space.Avoids spare location.address location.byteSize) :
    (space.withMemory other).tableAt? location = space.tableAt? location := by
  unfold tableAt?
  split
  · rename_i there
    rw [readTable_withMemory differs (avoids there.1)]
  · rfl

end Congr
end AddressSpace

namespace DynamicSymbols

def hashCounts? (space : AddressSpace) (layout : Layout) (address : UInt64) :
    Option (UInt32 × UInt32) := do
  let head ← (space.readTable address HashTable.headerSize.toUInt64).toOption
  ((HashTable.counts layout.order).decode head).toOption

theorem readHash?_eq (space : AddressSpace) (layout : Layout) {address : UInt64}
    (present : address ≠ 0) :
    readHash? space layout address =
      (hashCounts? space layout address).bind fun (buckets, chains) =>
        (space.readTable address (HashTable.byteSize buckets chains).toUInt64).toOption.bind
          fun bytes => (HashTable.ofBytes? layout.order bytes).toOption := by
  rw [readHash?, if_neg present]
  exact (Option.bind_assoc _ _ _).symm

/-- Where a hash table lies as far as its counts, and as far as these tell it to. -/
def hashLocations (space : AddressSpace) (layout : Layout) (address : UInt64) :
    List TableLocation :=
  let called := (hashCounts? space layout address).map fun (buckets, chains) =>
    HashTable.byteSize buckets chains
  (HashTable.headerSize :: called.toList).map fun byteSize =>
    { address, byteSize := byteSize.toUInt64, stride := 0 }

end DynamicSymbols

/-- Where the tables lie that the entries of an array name. -/
def Linkage.namedTables (space : AddressSpace) (layout : Layout) (entries : List DynamicEntry) :
    List TableLocation :=
  let symbols := DynamicSymbols.locate space layout entries
  let relocs := DynamicRelocations.locate space layout entries
  (symbols.stringLocation :: symbols.symbolLocation :: relocs.relaLocation :: relocs.relLocation ::
    relocs.pltLocation :: DynamicSymbols.hashLocations space layout symbols.hashAddress).filter
      (·.isPresent)

section Congr

variable {space : AddressSpace} {other : Memory} {spare : Nat → Prop} {layout : Layout}
  {entries : List DynamicEntry}

theorem DynamicSymbols.readHash?_withMemory {address : UInt64}
    (differs : space.memory.DiffersOnlyAt other spare)
    (avoids : ∀ location ∈ hashLocations space layout address, location.isPresent →
      space.Avoids spare location.address location.byteSize) :
    readHash? (space.withMemory other) layout address = readHash? space layout address := by
  by_cases absent : address = 0
  · rw [absent]
    rfl
  · have apart : ∀ location ∈ hashLocations space layout address,
        space.Avoids spare location.address location.byteSize := by
      intro location listed
      obtain ⟨_, -, rfl⟩ := List.mem_map.mp listed
      exact avoids _ listed (decide_eq_true absent)
    have head := AddressSpace.readTable_withMemory differs (apart _ (List.mem_cons_self ..))
    have counts : hashCounts? (space.withMemory other) layout address =
        hashCounts? space layout address := by
      rw [hashCounts?, hashCounts?, head]
    rw [readHash?_eq _ layout absent, readHash?_eq _ layout absent, counts]
    apply Option.bind_congr
    rintro ⟨buckets, chains⟩ counted
    have whole := apart ⟨address, (HashTable.byteSize buckets chains).toUInt64, 0⟩
      (by simp [hashLocations, counted])
    simp only [AddressSpace.readTable_withMemory differs whole]

theorem DynamicSymbols.locate_withMemory (differs : space.memory.DiffersOnlyAt other spare)
    (avoids : ∀ location ∈ Linkage.namedTables space layout entries,
      space.Avoids spare location.address location.byteSize) :
    locate (space.withMemory other) layout entries = locate space layout entries := by
  have named := fun location listed present =>
    avoids location (List.mem_filter.mpr ⟨listed, present⟩)
  have hashed : readHash? (space.withMemory other) layout
      (DynamicEntry.addressOf space.domain DynamicTag.hash entries) =
        readHash? space layout (DynamicEntry.addressOf space.domain DynamicTag.hash entries) :=
    readHash?_withMemory differs fun location listed => named location (by simp [locate, listed])
  have strings := AddressSpace.tableAt?_withMemory differs
    (named (locate space layout entries).stringLocation (by simp))
  have symbols := AddressSpace.tableAt?_withMemory differs
    (named (locate space layout entries).symbolLocation (by simp))
  have domain : (space.withMemory other).domain = space.domain := rfl
  simp only [locate] at strings symbols
  simp only [locate, domain, hashed, strings, symbols]

theorem DynamicRelocations.locate_withMemory (differs : space.memory.DiffersOnlyAt other spare)
    (avoids : ∀ location ∈ Linkage.namedTables space layout entries,
      space.Avoids spare location.address location.byteSize) :
    locate (space.withMemory other) layout entries = locate space layout entries := by
  have named := fun location listed present =>
    avoids location (List.mem_filter.mpr ⟨listed, present⟩)
  have rela := AddressSpace.tableAt?_withMemory differs
    (named (locate space layout entries).relaLocation (by simp))
  have rel := AddressSpace.tableAt?_withMemory differs
    (named (locate space layout entries).relLocation (by simp))
  have plt := AddressSpace.tableAt?_withMemory differs
    (named (locate space layout entries).pltLocation (by simp))
  have domain : (space.withMemory other).domain = space.domain := rfl
  simp only [locate] at rela rel plt
  simp only [locate, readTable?, domain, rela, rel, plt]

namespace Linkage

/-- A place in memory holds a byte of an array behind its first null tag. -/
def LiesBehindNull (space : AddressSpace) (layout : Layout) (address byteSize : UInt64)
    (bytes : Bytes) (place : Nat) : Prop :=
  ∃ position ∈ space.position? address byteSize,
    position.toNat + DynamicEntry.usedSize layout bytes ≤ place ∧
      place < position.toNat + byteSize.toNat

/-- In memory, the bytes behind the null tag follow those that are used. -/
theorem liesBehindNull_mapped_iff {memory : Memory} {base high : UInt64} {limits : Limits}
    {address byteSize : UInt64} {bytes : Bytes} {place : Nat} :
    LiesBehindNull (.mapped memory base high limits) layout address byteSize bytes place ↔
      address.toNat + DynamicEntry.usedSize layout bytes ≤ place ∧
        place < address.toNat + byteSize.toNat := by
  unfold LiesBehindNull
  rw [AddressSpace.position?_mapped]
  constructor
  · rintro ⟨position, found, behind⟩
    obtain rfl := Option.some.inj found
    exact behind
  · exact fun behind => ⟨address, rfl, behind⟩

/-- An array that differs behind its first null tag alone is read with the same entries. -/
theorem exists_readTable_withMemory {address byteSize : UInt64} {bytes : Bytes}
    (read : space.readTable address byteSize = .ok bytes)
    (differs : space.memory.DiffersOnlyAt other
      (LiesBehindNull space layout address byteSize bytes)) :
    ∃ counterpart, (space.withMemory other).readTable address byteSize = .ok counterpart ∧
      DynamicEntry.decodeArray layout counterpart = DynamicEntry.decodeArray layout bytes := by
  obtain ⟨allowed, position, place, read⟩ := AddressSpace.exists_position_of_readTable read
  obtain ⟨counterpart, also, size, same⟩ := differs.exists_read read
  refine ⟨counterpart, ?_, DynamicEntry.decodeArray_congr size ?_⟩
  · have place' : (space.withMemory other).position? address byteSize = some position := place
    rw [AddressSpace.readTable_eq, place']
    exact (if_neg (UInt64.not_lt.mpr allowed)).trans also
  · intro index used
    apply same
    rintro ⟨start, found, behind, -⟩
    obtain rfl : position = start := Option.some.inj (place.symm.trans found)
    omega

/-- An array of entries with nonzero tags is read back from its bytes in any class and byte order,
whatever value the null tag carries, whatever stands behind it, and also if there is no null tag but
only a part of an entry; and no bytes are refused. So if two memories differ only in bytes of an
array behind its first null tag, and none of them belongs to a table that an entry names, then the
array and all its tables are read from the one as from the other, and whatever is looked up in them
is the same. -/
theorem read_ends_at_null :
    (∀ (layout : Layout) (entries : List DynamicEntry),
      (∀ entry ∈ entries, entry.Fits layout ∧ entry.tag ≠ DynamicTag.null) →
      (∀ last rest, DynamicEntry.readArray layout
        (DynamicEntry.encodeArray layout entries last rest).toArray = .ok entries) ∧
      ∀ tail : List UInt8, tail.length < layout.dynamicSize → DynamicEntry.readArray layout
        (entries.flatMap (DynamicEntry.encode layout) ++ tail).toArray = .ok entries) ∧
    (∀ layout bytes, ∃ entries, DynamicEntry.readArray layout bytes = .ok entries) ∧
    ∀ (space : AddressSpace) (other : Memory) (layout : Layout) (address byteSize : UInt64)
      (bytes : Bytes), space.readTable address byteSize = .ok bytes →
      (space.memory.DiffersOnlyAt other (LiesBehindNull space layout address byteSize bytes)) →
      (∀ location ∈ namedTables space layout (DynamicEntry.decodeArray layout bytes),
        space.Avoids (LiesBehindNull space layout address byteSize bytes) location.address
          location.byteSize) →
      ∃ linkage, read space layout address byteSize = .ok linkage ∧
        read (space.withMemory other) layout address byteSize = .ok linkage ∧
        DynamicEntry.readArray layout bytes = .ok linkage.entries := by
  refine ⟨?_, ?_, ?_⟩
  · intro layout entries proper
    have fits := fun entry listed => (proper entry listed).1
    have named := fun entry listed => (proper entry listed).2
    refine ⟨?_, ?_⟩
    · intro last rest
      rw [DynamicEntry.readArray_eq, DynamicEntry.decodeArray_of_terminated fits named]
    · intro tail short
      rw [DynamicEntry.readArray_eq, DynamicEntry.decodeArray_of_unterminated fits named short]
  · intro layout bytes
    exact ⟨_, DynamicEntry.readArray_eq layout bytes⟩
  · intro space other layout address byteSize bytes array differs avoids
    obtain ⟨counterpart, also, entries⟩ := exists_readTable_withMemory array differs
    have tables := DynamicSymbols.locate_withMemory differs avoids
    have relocs := DynamicRelocations.locate_withMemory differs avoids
    refine ⟨ofEntries space layout address byteSize (DynamicEntry.decodeArray layout bytes), ?_, ?_,
      DynamicEntry.readArray_eq layout bytes⟩
    · rw [Linkage.read, array]
      rfl
    · rw [Linkage.read, also]
      change Except.ok (ofEntries _ layout address byteSize
        (DynamicEntry.decodeArray layout counterpart)) = _
      rw [entries, ofEntries, tables, relocs]
      rfl

end Linkage
end Congr

/-- An array of three entries with two more records behind its null tag, and strings behind that. -/
def Linkage.overfullArray (last : UInt64) (rest : List UInt8) : Bytes :=
  let entries : List DynamicEntry :=
    [⟨DynamicTag.strings, 48⟩, ⟨DynamicTag.stringsSize, 4⟩, ⟨DynamicTag.soname, 1⟩]
  (DynamicEntry.encodeArray ⟨.elf32, .little⟩ entries last rest ++ [0, 97, 98, 0]).toArray

theorem Linkage.overfullArray_ends_at_null :
    let space := fun bytes => AddressSpace.mapped (.ofBytes 0x1000 bytes) 0x1000 0x1034 {}
    let flags := DynamicEntry.encode ⟨.elf32, .little⟩ ⟨DynamicTag.flags, 8⟩
    ∃ linkage,
      read (space (overfullArray 0 (flags ++ flags))) ⟨.elf32, .little⟩ 0x1000 48 = .ok linkage ∧
      read (space (overfullArray 9 (List.replicate 16 255))) ⟨.elf32, .little⟩ 0x1000 48 =
        .ok linkage ∧
      linkage.flags? = none ∧ linkage.soname? = some "ab" := by
  intro space flags
  let whole := overfullArray 0 (flags ++ flags)
  let other := overfullArray 9 (List.replicate 16 255)
  have array : (space whole).readTable 0x1000 48 = .ok (whole.extract 0 48) :=
    eq_ok_of_toOption (by decide +kernel)
  have used : DynamicEntry.usedSize ⟨.elf32, .little⟩ (whole.extract 0 48) = 28 := by
    decide +kernel
  have base : (0x1000 : UInt64).toNat = 4096 ∧ (48 : UInt64).toNat = 48 := ⟨rfl, rfl⟩
  have differs : (space whole).memory.DiffersOnlyAt (.ofBytes 0x1000 other)
      (LiesBehindNull (space whole) ⟨.elf32, .little⟩ 0x1000 48 (whole.extract 0 48)) := by
    have size : whole.size = 52 ∧ other.size = 52 := by decide +kernel
    have same : ∀ place < 52, (28 ≤ place ∧ place < 48) ∨ other[place]? = whole[place]? := by
      decide +kernel
    apply Memory.differsOnlyAt_ofBytes (size.2.trans size.1.symm)
    intro place kept
    rw [liesBehindNull_mapped_iff, used, base.1, base.2] at kept
    by_cases inside : place < 52
    · exact (same place inside).resolve_left (by omega)
    · rw [Array.getElem?_eq_none (by omega), Array.getElem?_eq_none (by omega)]
  have avoids : ∀ location ∈ namedTables (space whole) ⟨.elf32, .little⟩
      (DynamicEntry.decodeArray ⟨.elf32, .little⟩ (whole.extract 0 48)),
      (space whole).Avoids (LiesBehindNull (space whole) ⟨.elf32, .little⟩ 0x1000 48
        (whole.extract 0 48)) location.address location.byteSize := by
    have named : namedTables (space whole) ⟨.elf32, .little⟩
        (DynamicEntry.decodeArray ⟨.elf32, .little⟩ (whole.extract 0 48)) =
          [⟨0x1030, 4, 0⟩] := by decide +kernel
    rw [named]
    intro location listed position found place _
    obtain rfl := List.mem_singleton.mp listed
    obtain rfl : 0x1030 = position := Option.some.inj found
    rw [liesBehindNull_mapped_iff, base.1, base.2, show (0x1030 : UInt64).toNat = 4144 from rfl]
    omega
  obtain ⟨-, -, apart⟩ := read_ends_at_null
  obtain ⟨linkage, here, there, -⟩ := apart (space whole) _ _ _ _ _ array differs avoids
  have told : (read (space whole) ⟨.elf32, .little⟩ 0x1000 48).toOption.map (fun linkage =>
      (linkage.flags?, linkage.soname?)) = some (none, some "ab") := by decide +kernel
  rw [here] at told
  obtain ⟨flags, soname⟩ := Prod.mk.inj (Option.some.inj told)
  exact ⟨linkage, here, there, flags, soname⟩

end ElfLens
