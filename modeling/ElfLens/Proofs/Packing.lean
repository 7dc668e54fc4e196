import ElfLens.Proofs.Record
import ElfLens.SymbolHash

set_option autoImplicit false

namespace ElfLens

theorem Bytes.slice?_of_toList {bytes : Bytes} {front middle back : List UInt8}
    (whole : bytes.toList = front ++ middle ++ back) :
    bytes.slice? front.length middle.length = some middle.toArray := by
  have size : bytes.size = front.length + middle.length + back.length := by
    rw [← Array.length_toList, whole, List.length_append, List.length_append]
  apply Bytes.slice?_eq_some_iff.mpr
  refine ⟨by omega, ?_⟩
  apply Array.toList_inj.mp
  rw [toList_extract_add, whole, List.append_assoc, List.drop_left, List.take_left]

theorem length_flatMap_of_even {α : Type} {encode : α → List UInt8} {width : Nat}
    (even : ∀ x, (encode x).length = width) (xs : List α) :
    (xs.flatMap encode).length = xs.length * width := by
  induction xs with
  | nil => simp
  | cons x xs ih => rw [List.flatMap_cons, List.length_append, even, ih, List.length_cons,
      Nat.succ_mul, Nat.add_comm]

/-- A list whose elements are given by their places. -/
theorem filterMap_range_eq {α : Type} {f : Nat → Option α} {xs : List α}
    (places : ∀ index, index < xs.length → f index = xs[index]?) :
    (List.range xs.length).filterMap f = xs := by
  induction xs generalizing f with
  | nil => rfl
  | cons x xs ih =>
      have first : f 0 = some x := places 0 (by simp)
      rw [List.length_cons, List.range_succ_eq_map, List.filterMap_cons, first,
        List.filterMap_map]
      apply congrArg (x :: ·)
      apply ih
      intro index inside
      exact places (index + 1) (by simpa using inside)

/-- The record at an index of packed records is the encoding of the element there. -/
theorem Table.record?_of_packed {α : Type} {table : Table} {encode : α → List UInt8} {xs : List α}
    {rest : List UInt8} {index : Nat} {x : α}
    (even : ∀ x, (encode x).length = table.stride)
    (packed : table.bytes.toList = xs.flatMap encode ++ rest) (stands : xs[index]? = some x) :
    table.record? index = some (encode x).toArray := by
  obtain ⟨inside, rfl⟩ := List.getElem?_eq_some_iff.mp stands
  have split : table.bytes.toList = (xs.take index).flatMap encode ++ encode xs[index] ++
      ((xs.drop (index + 1)).flatMap encode ++ rest) := by
    have parts : xs = xs.take index ++ (xs[index] :: xs.drop (index + 1)) := by
      rw [← List.drop_eq_getElem_cons inside, List.take_append_drop]
    have bytes := congrArg (List.flatMap encode) parts
    rw [List.flatMap_append, List.flatMap_cons] at bytes
    rw [packed, bytes, List.append_assoc, List.append_assoc, List.append_assoc]
  have sliced := Bytes.slice?_of_toList split
  rw [length_flatMap_of_even even, List.length_take_of_le (Nat.le_of_lt inside), even] at sliced
  exact sliced

/-- Packed records are read back in order, in front of whatever the rest of the table holds. -/
theorem Table.exists_filterMap_decode?_of_packed {α : Type} {table : Table}
    {reader : FieldReader α} {encode : α → List UInt8} {xs : List α} {rest : List UInt8}
    (even : ∀ x, (encode x).length = table.stride)
    (packed : table.bytes.toList = xs.flatMap encode ++ rest)
    (reads : ∀ x ∈ xs, reader.Reads (encode x) x) :
    ∃ more, (List.range table.size).filterMap (table.decode? reader) = xs ++ more := by
  have decoded : ∀ index, index < xs.length → table.decode? reader index = xs[index]? := by
    intro index inside
    have stands := List.getElem?_eq_getElem inside
    have read := reads _ (List.getElem_mem inside)
    rw [decode?, record?_of_packed even packed stands, Option.bind_some,
      FieldReader.decode_of_reads read (List.append_nil _).symm, stands]
    rfl
  have enough : xs.length ≤ table.size := by
    rw [size, Nat.le_div_iff_mul_le table.stride_pos, ← Array.length_toList, packed,
      List.length_append, length_flatMap_of_even even]
    exact Nat.le_add_right _ _
  obtain ⟨more, size⟩ := Nat.exists_eq_add_of_le enough
  rw [size, List.range_add, List.filterMap_append, filterMap_range_eq decoded]
  exact ⟨_, rfl⟩

/-- The tag and the value are ones that the class has room for. -/
def DynamicEntry.Fits (layout : Layout) (entry : DynamicEntry) : Prop :=
  layout.HoldsSigned entry.tag ∧ layout.Holds entry.value

instance (layout : Layout) (entry : DynamicEntry) : Decidable (entry.Fits layout) :=
  inferInstanceAs (Decidable (layout.HoldsSigned entry.tag ∧ layout.Holds entry.value))

/-- The bytes of an array: its entries, a null tag with any value, and whatever stands behind. -/
def DynamicEntry.encodeArray (layout : Layout) (entries : List DynamicEntry) (last : UInt64)
    (rest : List UInt8) : List UInt8 :=
  (entries ++ [DynamicEntry.mk DynamicTag.null last]).flatMap (encode layout) ++ rest

theorem Layout.holdsSigned_zero (layout : Layout) : layout.HoldsSigned 0 := by
  unfold HoldsSigned
  split
  · decide
  · trivial

/-- An array is read back up to the null tag, and nothing behind that matters. -/
theorem DynamicEntry.decodeArray_encodeArray {layout : Layout} {entries : List DynamicEntry}
    {last : UInt64} {rest : List UInt8} (fits : ∀ entry ∈ entries, entry.Fits layout)
    (named : ∀ entry ∈ entries, entry.tag ≠ DynamicTag.null) (held : layout.Holds last) :
    decodeArray layout (encodeArray layout entries last rest).toArray = entries := by
  have reads : ∀ entry ∈ entries ++ [DynamicEntry.mk DynamicTag.null last],
      (fields layout).Reads (encode layout entry) entry := by
    intro entry listed
    rcases List.mem_append.mp listed with front | null
    · exact reads_fields (fits entry front).1 (fits entry front).2
    · obtain rfl := List.mem_singleton.mp null
      exact reads_fields layout.holdsSigned_zero held
  rw [decodeArray, Table.make?, dif_pos layout.dynamicSize_pos]
  obtain ⟨more, decoded⟩ := Table.exists_filterMap_decode?_of_packed
    (show ∀ entry, (encode layout entry).length =
      (Table.mk (encodeArray layout entries last rest).toArray layout.dynamicSize layout
        layout.dynamicSize_pos).stride from length_encode layout) rfl reads
  simp only [decoded]
  rw [List.append_assoc, List.takeWhile_append_of_pos (by simpa using named)]
  simp

namespace HashTable

theorem exists_of_length_four {α : Type} {xs : List α} (four : xs.length = 4) :
    ∃ a b c d, xs = [a, b, c, d] :=
  match xs, four with
  | [a, b, c, d], _ => ⟨a, b, c, d, rfl⟩

theorem words_append (order : Endian) (word : UInt32) (rest : List UInt8) :
    words order (order.spell32 word ++ rest) = word :: words order rest := by
  have read : (order.value (order.spell32 word)).toUInt32 = word := by
    have bound : word.toNat < Endian.capacity 4 := word.toNat_lt
    rw [Endian.spell32, Endian.value_spell_of_lt order bound]
    simp [Nat.toUInt32]
  obtain ⟨a, b, c, d, shape⟩ := exists_of_length_four (Endian.length_spell order 4 word.toNat)
  change order.spell32 word = [a, b, c, d] at shape
  rw [shape] at read
  rw [shape, List.cons_append, List.cons_append, List.cons_append, List.cons_append,
    List.nil_append, words, read]

theorem words_flatMap (order : Endian) (list : List UInt32) :
    words order (list.flatMap order.spell32) = list := by
  induction list with
  | nil => rfl
  | cons word rest ih => rw [List.flatMap_cons, words_append, ih]

/-- The bytes of a hash table: how many buckets and links it has, and these. -/
def encode (order : Endian) (table : HashTable) : List UInt8 :=
  order.spell32 table.buckets.size.toUInt32 ++ order.spell32 table.chains.size.toUInt32 ++
    (table.buckets.toList ++ table.chains.toList).flatMap order.spell32

theorem length_counts (order : Endian) (buckets chains : UInt32) :
    (order.spell32 buckets ++ order.spell32 chains).length = headerSize := by
  rw [List.length_append, Endian.spell32, Endian.spell32, Endian.length_spell,
    Endian.length_spell, headerSize]

theorem reads_counts (order : Endian) (buckets chains : UInt32) :
    (counts order).Reads (order.spell32 buckets ++ order.spell32 chains) (buckets, chains) :=
  (FieldReader.reads_u32 order buckets).bind
    ((FieldReader.reads_u32 order chains).map fun read => (buckets, read))

theorem length_encode (order : Endian) (table : HashTable) :
    (table.encode order).length = (2 + table.buckets.size + table.chains.size) * 4 := by
  have even : ∀ word, (order.spell32 word).length = 4 := fun word => Endian.length_spell _ _ _
  rw [encode, List.length_append, List.length_append, even, even, length_flatMap_of_even even,
    List.length_append, Array.length_toList, Array.length_toList]
  omega

/-- The counts are read back from as much of the bytes as has them. -/
theorem decode_counts_extract (order : Endian) (table : HashTable) {size : Nat}
    (enough : headerSize ≤ size) :
    (counts order).decode ((table.encode order).toArray.extract 0 size) =
      .ok (table.buckets.size.toUInt32, table.chains.size.toUInt32) := by
  apply FieldReader.decode_of_reads (reads_counts order _ _)
  rw [List.extract_toArray, List.extract_eq_take_drop, List.drop_zero, Nat.sub_zero, encode,
    List.take_append, List.take_of_length_le (by rw [length_counts]; exact enough)]

theorem byteSize_counts (order : Endian) (table : HashTable)
    (buckets : table.buckets.size < UInt32.size) (chains : table.chains.size < UInt32.size) :
    byteSize table.buckets.size.toUInt32 table.chains.size.toUInt32 =
      (table.encode order).length := by
  rw [byteSize, UInt32.toNat_ofNat_of_lt' buckets, UInt32.toNat_ofNat_of_lt' chains, length_encode]

/-- A hash table is read back from its bytes. -/
theorem ofBytes?_encode (order : Endian) (table : HashTable)
    (buckets : table.buckets.size < UInt32.size) (chains : table.chains.size < UInt32.size) :
    ofBytes? order (table.encode order).toArray = .ok table := by
  have long := table.length_encode order
  have head : (counts order).decode (table.encode order).toArray =
      .ok (table.buckets.size.toUInt32, table.chains.size.toUInt32) := by
    have whole := table.decode_counts_extract order
      (show headerSize ≤ (table.encode order).toArray.size by
        rw [List.size_toArray, long, headerSize]
        omega)
    rwa [Array.extract_size] at whole
  have bucketCount : table.buckets.size.toUInt32.toNat = table.buckets.size :=
    UInt32.toNat_ofNat_of_lt' buckets
  have needed := table.byteSize_counts order buckets chains
  have body : ((table.encode order).toArray.extract headerSize (table.encode order).length).toList =
      (table.buckets.toList ++ table.chains.toList).flatMap order.spell32 := by
    have counted := length_counts order table.buckets.size.toUInt32 table.chains.size.toUInt32
    rw [List.extract_toArray, List.extract_eq_take_drop, ← counted, encode, List.drop_left]
    apply List.take_of_length_le
    rw [List.length_append]
    omega
  rw [ofBytes?, head]
  simp only [bind, Except.bind, needed, body, List.size_toArray, Nat.lt_irrefl, ↓reduceIte,
    bucketCount, words_flatMap, pure, Except.pure, Except.ok.injEq]
  obtain ⟨bucketWords, chainWords⟩ := table
  have chainsWhole : chainWords.toList.take chainWords.size = chainWords.toList :=
    List.take_of_length_le (Nat.le_of_eq Array.length_toList)
  simp [Array.take, Array.drop, chainsWhole]

end HashTable

end ElfLens
