import ElfLens.Proofs.SymbolDirectory

set_option autoImplicit false

namespace ElfLens

theorem Bytes.ofText_ne_empty {text : String} (named : text ≠ "") : ofText text ≠ #[] := by
  intro empty
  have spelled := text?_ofText text
  have blank := text?_ofText ""
  rw [empty] at spelled
  rw [show ofText "" = #[] from rfl] at blank
  exact named (Option.some.inj (spelled.symm.trans blank))

theorem Bytes.name_eq_empty_of_cstring? {table name : Bytes} {offset : Nat}
    (empty : table.size = 0) (found : table.cstring? offset = some name) : name = #[] := by
  have front := (cstring?_eq_some_iff.mp found).2
  rw [List.drop_of_length_le (by rw [Array.length_toList, empty]; omega)] at front
  exact Array.toList_inj.mp front

namespace SymbolDirectory.Presentation

variable {directory : SymbolDirectory}

def space (form : directory.Presentation) : AddressSpace :=
  .mapped form.memory form.base form.high form.limits

def tables (form : directory.Presentation) : DynamicSymbols :=
  .locate form.space form.layout form.entries

def byteSize (form : directory.Presentation) : UInt64 :=
  (DynamicEntry.encodeArray form.layout form.entries form.last form.rest).length.toUInt64

theorem domain_space (form : directory.Presentation) :
    form.space.domain = .loaded form.base := AddressSpace.domain_mapped _ _ _ _

theorem stride_pos (form : directory.Presentation) : 0 < form.stride.toNat :=
  Nat.lt_of_lt_of_le form.layout.symbolSize_pos form.stride_enough

/-- The dynamic array is read, and its entries are the ones in front of the null tag. -/
theorem read_eq (form : directory.Presentation) :
    Linkage.read form.space form.layout form.address form.byteSize =
      .ok (.ofEntries form.space form.layout form.address form.byteSize form.entries) := by
  have allowed := form.array_allowed
  have size : form.byteSize.toNat =
      (DynamicEntry.encodeArray form.layout form.entries form.last form.rest).length := by
    have bound := form.limits.tableBytes.toNat_lt
    exact UInt64.toNat_ofNat_of_lt' (by rw [Word.size_eq]; omega)
  have positive : 0 < form.byteSize.toNat := by
    have some_entry := form.layout.dynamicSize_pos
    rw [size, DynamicEntry.encodeArray, List.length_append,
      length_flatMap_of_even (DynamicEntry.length_encode form.layout), List.length_append,
      List.length_singleton, Nat.add_mul]
    omega
  have whole : form.space.readTable form.address form.byteSize =
      .ok (DynamicEntry.encodeArray form.layout form.entries form.last form.rest).toArray := by
    rw [space, AddressSpace.readTable_of_holds _ _ form.array_lies positive (Nat.le_of_eq size)
      allowed, size, List.size_toArray.symm, Array.extract_size]
  rw [Linkage.read, whole]
  change Except.ok _ = _
  rw [DynamicEntry.decodeArray_encodeArray form.entries_fit form.entries_named form.last_held]

theorem strings?_eq (form : directory.Presentation) :
    form.tables.strings? =
      if directory.strings.size = 0 then none else some directory.strings := by
  have location : form.tables.stringLocation =
      ⟨(AddressDomain.loaded form.base).resolve form.stringsAt, form.stringsSize, 0⟩ := by
    change TableLocation.mk
      (DynamicEntry.addressOf form.space.domain DynamicTag.strings form.entries)
      (DynamicEntry.sizeOf DynamicTag.stringsSize form.entries) 0 = _
    rw [form.domain_space, DynamicEntry.addressOf_of_single form.strings_told form.strings_nonzero,
      DynamicEntry.sizeOf_of_single form.stringsSize_told]
  have present := (AddressDomain.loaded form.base).resolve_ne_zero form.strings_nonzero
  change form.space.tableAt? form.tables.stringLocation = _
  rw [location]
  exact AddressSpace.tableAt?_of_holds form.strings_lie present form.strings_size
    form.strings_allowed

/-- The hash table is read in two steps, its counts and then the whole of it. -/
theorem hash?_eq (form : directory.Presentation) :
    form.tables.hash? = some directory.hashTable := by
  have buckets : directory.hashTable.buckets.size < UInt32.size := directory.bucketCount
  have chains : directory.hashTable.chains.size < UInt32.size := directory.linkCount
  have address : DynamicEntry.addressOf form.space.domain DynamicTag.hash form.entries =
      (AddressDomain.loaded form.base).resolve form.hashAt := by
    rw [form.domain_space, DynamicEntry.addressOf_of_single form.hash_told form.hash_nonzero]
  have present := (AddressDomain.loaded form.base).resolve_ne_zero form.hash_nonzero
  have length := directory.hashTable.length_encode form.layout.order
  have allowed := form.hash_allowed
  have lies : ∀ size : UInt64, 0 < size.toNat →
      size.toNat ≤ (directory.hashTable.encode form.layout.order).length →
      form.space.readTable ((AddressDomain.loaded form.base).resolve form.hashAt) size =
        .ok ((directory.hashTable.encode form.layout.order).toArray.extract 0 size.toNat) :=
    fun size positive inside =>
      AddressSpace.readTable_of_holds _ _ form.hash_lies positive inside allowed
  have head := lies HashTable.headerSize.toUInt64 (by decide) (by
    rw [length, show HashTable.headerSize.toUInt64.toNat = 8 from rfl]
    omega)
  have counted := directory.hashTable.decode_counts_extract form.layout.order
    (show HashTable.headerSize ≤ HashTable.headerSize.toUInt64.toNat by decide)
  have needed : (HashTable.byteSize directory.hashTable.buckets.size.toUInt32
      directory.hashTable.chains.size.toUInt32).toUInt64.toNat =
        (directory.hashTable.encode form.layout.order).length := by
    have bound := form.limits.tableBytes.toNat_lt
    rw [directory.hashTable.byteSize_counts form.layout.order buckets chains]
    exact UInt64.toNat_ofNat_of_lt' (by rw [Word.size_eq]; omega)
  have whole := lies _ (by rw [needed, length]; omega) (Nat.le_of_eq needed)
  rw [needed, List.size_toArray.symm, Array.extract_size] at whole
  change DynamicSymbols.readHash? form.space form.layout
    (DynamicEntry.addressOf form.space.domain DynamicTag.hash form.entries) = _
  rw [address, DynamicSymbols.readHash?, if_neg present]
  simp only [head, counted, whole, HashTable.ofBytes?_encode _ _ buckets chains, Except.toOption,
    Option.bind_eq_bind, Option.bind_some]

/-- A stride that is long enough is not zero, so it is the one that counts. -/
theorem strideOr_eq (form : directory.Presentation) :
    DynamicSymbols.strideOr (DynamicEntry.sizeOf DynamicTag.symbolStride form.entries)
      form.layout.symbolSize = form.stride := by
  have nonzero : form.stride ≠ 0 := by
    intro zero
    have positive := form.stride_pos
    rw [zero, UInt64.toNat_zero] at positive
    omega
  rw [DynamicEntry.sizeOf_of_single form.stride_told, DynamicSymbols.strideOr, if_neg nonzero]

theorem count_eq (form : directory.Presentation) :
    form.tables.count = directory.symbols.length := by
  rw [DynamicSymbols.count, form.hash?_eq]
  exact directory.linked

/-- The product of the count and the stride is the size of the records. -/
theorem times?_eq (form : directory.Presentation) :
    ((Word.times? form.tables.count.toUInt64 form.stride).getD 0).toNat = form.records.size := by
  have allowed := form.records_allowed
  have bound := form.limits.tableBytes.toNat_lt
  have few : directory.symbols.length < UInt64.size := by
    have links := directory.linkCount
    rw [directory.linked] at links
    exact Nat.lt_trans links (by decide)
  have count : form.tables.count.toUInt64.toNat = directory.symbols.length := by
    rw [form.count_eq]
    exact UInt64.toNat_ofNat_of_lt' few
  cases product : Word.times? form.tables.count.toUInt64 form.stride with
  | none =>
      have large := Word.times?_eq_none_iff.mp product
      rw [count, ← form.records_size, Word.size_eq] at large
      omega
  | some size =>
      have exact_size := Word.times?_eq_some_iff.mp product
      rw [count, ← form.records_size] at exact_size
      exact exact_size

/-- There are as many symbols as links, each as long as the stride, so the table is the records. -/
theorem symbols?_eq (form : directory.Presentation) :
    form.tables.symbols? = if form.records.size = 0 then none
      else some ⟨form.records, form.stride.toNat, form.layout, form.stride_pos⟩ := by
  have location : form.tables.symbolLocation =
      ⟨(AddressDomain.loaded form.base).resolve form.symbolsAt,
        (Word.times? form.tables.count.toUInt64 form.stride).getD 0, form.stride⟩ := by
    change TableLocation.mk
      (DynamicEntry.addressOf form.space.domain DynamicTag.symbols form.entries)
      ((Word.times? form.tables.count.toUInt64 (DynamicSymbols.strideOr
        (DynamicEntry.sizeOf DynamicTag.symbolStride form.entries) form.layout.symbolSize)).getD 0)
      (DynamicSymbols.strideOr (DynamicEntry.sizeOf DynamicTag.symbolStride form.entries)
        form.layout.symbolSize) = _
    rw [form.strideOr_eq, form.domain_space,
      DynamicEntry.addressOf_of_single form.symbols_told form.symbols_nonzero]
  have present := (AddressDomain.loaded form.base).resolve_ne_zero form.symbols_nonzero
  have whole : form.space.tableAt? form.tables.symbolLocation =
      if form.records.size = 0 then none else some form.records := by
    rw [location]
    exact AddressSpace.tableAt?_of_holds form.symbols_lie present form.times?_eq
      form.records_allowed
  change (form.space.tableAt? form.tables.symbolLocation).bind (fun bytes =>
    (Table.make? bytes (DynamicSymbols.strideOr
      (DynamicEntry.sizeOf DynamicTag.symbolStride form.entries) form.layout.symbolSize).toNat
        form.layout).toOption) = _
  rw [form.strideOr_eq, whole]
  split
  · rfl
  · rw [Option.bind_some, Table.make?, dif_pos form.stride_pos]
    rfl

theorem symbol?_eq (form : directory.Presentation) (index : Nat) :
    form.tables.symbol? index = directory.symbols[index]? := by
  have size := form.records_size
  have positive := form.stride_pos
  rw [DynamicSymbols.symbol?, form.symbols?_eq]
  cases stands : directory.symbols[index]? with
  | none =>
      have outside := List.getElem?_eq_none_iff.mp stands
      split
      · rfl
      · rw [Option.bind_some, Table.symbol?, Table.decode?, Table.record?,
          Bytes.slice?_eq_none_iff.mpr]
        · rfl
        · rw [size]
          have product := Nat.mul_le_mul_right form.stride.toNat outside
          exact Nat.lt_of_le_of_lt product (Nat.lt_add_of_pos_right positive)
  | some symbol =>
      obtain ⟨padding, sliced⟩ := form.records_hold index symbol stands
      have fits := form.symbols_fit symbol (List.mem_of_getElem? stands)
      have bound := (Bytes.slice?_eq_some_iff.mp sliced).1
      rw [if_neg (by omega), Option.bind_some]
      apply Table.decode?_eq_some_iff.mpr
      refine ⟨_, sliced, ?_⟩
      have read : (Symbol.fields form.layout symbol.index).Reads (symbol.encode form.layout) symbol :=
        Symbol.reads_fields fits symbol.index
      rw [directory.numbered index symbol stands] at read
      exact FieldReader.decode_of_reads read rfl

/-- A name that is not empty is carried in the tables where the directory says it is. -/
theorem carries_eq (form : directory.Presentation) {name : Bytes} (named : name ≠ #[])
    (index : Nat) :
    form.tables.carries name index = decide (directory.nameAt? index = some name) := by
  apply Bool.eq_iff_iff.mpr
  rw [DynamicSymbols.carries_iff, decide_eq_true_eq, nameAt?, Option.bind_eq_some_iff,
    form.strings?_eq]
  constructor
  · rintro ⟨strings, symbol, present, found, spelled⟩
    rw [form.symbol?_eq] at found
    refine ⟨symbol, found, ?_⟩
    split at present
    · cases present
    · obtain rfl := Option.some.inj present
      exact spelled
  · rintro ⟨symbol, found, spelled⟩
    have some_bytes : directory.strings.size ≠ 0 := by
      intro empty
      exact named (Bytes.name_eq_empty_of_cstring? empty spelled)
    refine ⟨directory.strings, symbol, if_neg some_bytes, ?_, spelled⟩
    rw [form.symbol?_eq, found]

/-- The tables find what the directory answers. -/
theorem find?_eq (form : directory.Presentation) {text : String} (named : text ≠ "") :
    form.tables.find? text = directory.answer text := by
  have carries := form.carries_eq (Bytes.ofText_ne_empty named)
  have asked : (fun link : UInt32 => form.tables.carries (Bytes.ofText text) link.toNat) =
      fun link => decide (directory.nameAt? link.toNat = some (Bytes.ofText text)) :=
    funext fun link => carries link.toNat
  -- A table that is missing leaves the directory without a name, and so without an answer.
  have needed : ∀ symbol, directory.answer text = some symbol →
      form.tables.strings?.isSome ∧ form.tables.symbols?.isSome := by
    intro symbol found
    obtain ⟨index, ⟨-, carried⟩, -⟩ := of_answer_eq_some found
    obtain ⟨strings, other, present, stands, -⟩ :=
      DynamicSymbols.carries_iff.mp ((carries index).trans (decide_eq_true carried))
    obtain ⟨table, tabled, -⟩ := Option.bind_eq_some_iff.mp stands
    rw [present, tabled]
    exact ⟨rfl, rfl⟩
  rw [DynamicSymbols.find?, DynamicSymbols.findHashed, form.hash?_eq]
  cases answered : directory.answer text with
  | none =>
      cases form.tables.strings? with
      | none => rfl
      | some strings =>
          cases form.tables.symbols? with
          | none => rfl
          | some table =>
              change (directory.hashTable.lookup (Bytes.ofText text) fun link =>
                form.tables.carries (Bytes.ofText text) link.toNat).bind _ = _
              rw [asked]
              simp only [form.symbol?_eq]
              exact answered
  | some symbol =>
      obtain ⟨named, tabled⟩ := needed symbol answered
      obtain ⟨strings, strings_eq⟩ := Option.isSome_iff_exists.mp named
      obtain ⟨table, table_eq⟩ := Option.isSome_iff_exists.mp tabled
      rw [strings_eq, table_eq]
      change (directory.hashTable.lookup (Bytes.ofText text) fun link =>
        form.tables.carries (Bytes.ofText text) link.toNat).bind _ = _
      rw [asked]
      simp only [form.symbol?_eq]
      exact answered

end SymbolDirectory.Presentation

/-- Where every named symbol is on its chain, a name other than the empty one has an answer exactly
if a symbol carries it, and the answer is such a symbol. The answer is there before any presentation
is: whichever class, byte order, entries, strides and addresses memory presents the directory with,
the image is read and gives that answer, under that name. -/
theorem SymbolDirectory.exists_answer_in_every_presentation (directory : SymbolDirectory)
    (reachable : directory.IsReachable) :
    ∃ answer : String → Option Symbol,
      (∀ text, text ≠ "" →
        ((answer text).isSome ↔ ∃ index, directory.Carries (Bytes.ofText text) index) ∧
        (∀ symbol, answer text = some symbol →
          ∃ index, directory.Carries (Bytes.ofText text) index ∧
            directory.symbols[index]? = some symbol) ∧
        (∀ index, directory.Carries (Bytes.ofText text) index →
          (∀ other, directory.Carries (Bytes.ofText text) other → other = index) →
          answer text = directory.symbols[index]?)) ∧
      ∀ form : directory.Presentation,
        ∃ linkage, Linkage.read form.space form.layout form.address form.byteSize = .ok linkage ∧
          ∀ text, text ≠ "" → linkage.symbols.find? text = answer text ∧
            ∀ symbol, answer text = some symbol → linkage.symbols.name symbol = .ok text := by
  refine ⟨directory.answer, ?_, ?_⟩
  · intro text _
    refine ⟨?_, fun symbol found => of_answer_eq_some found, ?_⟩
    · constructor
      · intro answered
        obtain ⟨symbol, found⟩ := Option.isSome_iff_exists.mp answered
        obtain ⟨index, carried, -⟩ := of_answer_eq_some found
        exact ⟨index, carried⟩
      · rintro ⟨index, carried⟩
        obtain ⟨symbol, found⟩ := exists_answer_of_carries reachable carried
        rw [found]
        rfl
    · intro index carried unique
      obtain ⟨symbol, found⟩ := exists_answer_of_carries reachable carried
      obtain ⟨other, also, stands⟩ := of_answer_eq_some found
      rw [found, ← stands, unique other also]
  · intro form
    refine ⟨_, form.read_eq, ?_⟩
    intro text named
    refine ⟨form.find?_eq named, ?_⟩
    intro symbol answered
    have found : form.tables.find? text = some symbol := (form.find?_eq named).trans answered
    obtain ⟨-, carried, stands⟩ := DynamicSymbols.of_find?_eq_some found
    exact DynamicSymbols.name_of_carries carried stands

/-- Two named symbols behind the reserved one, on one chain. -/
def SymbolDirectory.pair : SymbolDirectory where
  strings := #[0, 97, 0, 98]
  symbols := [⟨0, 0, 0, 0, 0, 0, 0⟩, ⟨1, 1, 0x10, 4, 0x12, 0, 7⟩, ⟨2, 3, 0x20, 8, 0x11, 0, 9⟩]
  buckets := [1]
  chains := [0, 2, 0]
  numbered := by
    rintro (_ | _ | _ | index) symbol stands
    all_goals cases stands
    all_goals rfl
  linked := rfl
  hashed := by decide
  bucketCount := by decide
  linkCount := by decide

/-- The two symbols in 32-bit big-endian memory, with a byte behind each record. -/
def SymbolDirectory.pairForm : pair.Presentation :=
  let layout : Layout := ⟨.elf32, .big⟩
  let entries : List DynamicEntry :=
    [⟨DynamicTag.symbolStride, 17⟩, ⟨DynamicTag.hash, 0x1067⟩, ⟨DynamicTag.strings, 48⟩,
      ⟨DynamicTag.stringsSize, 4⟩, ⟨DynamicTag.symbols, 52⟩]
  let array := DynamicEntry.encodeArray layout entries 0 []
  let records := pair.symbols.flatMap fun symbol => symbol.encode layout ++ [0xff]
  let hash := pair.hashTable.encode layout.order
  let bytes := (array ++ pair.strings.toList ++ records ++ hash).toArray
  { layout, entries
    memory := .ofBytes 0x1000 bytes
    base := 0x1000
    high := 0x107f
    limits := {}
    address := 0x1000
    last := 0
    rest := []
    stringsAt := 48
    stringsSize := 4
    symbolsAt := 52
    stride := 17
    hashAt := 0x1067
    records := records.toArray
    entries_fit := by decide
    entries_named := by decide
    last_held := by decide
    strings_told := by decide
    stringsSize_told := by decide
    symbols_told := by decide
    stride_told := by decide
    hash_told := by decide
    strings_nonzero := by decide
    symbols_nonzero := by decide
    hash_nonzero := by decide
    strings_size := by decide
    stride_enough := by decide
    records_size := by decide
    symbols_fit := by decide
    records_hold := by
      rintro (_ | _ | _ | index) symbol stands
      all_goals cases stands
      all_goals exact ⟨[0xff], by decide +kernel⟩
    array_lies := Memory.holds_ofBytes 0 (by decide +kernel) (by decide +kernel)
    strings_lie := Memory.holds_ofBytes 48 (by decide +kernel) (by decide +kernel)
    symbols_lie := Memory.holds_ofBytes 52 (by decide +kernel) (by decide +kernel)
    hash_lies := Memory.holds_ofBytes 103 (by decide +kernel) (by decide +kernel)
    array_allowed := by decide +kernel
    strings_allowed := by decide +kernel
    records_allowed := by decide +kernel
    hash_allowed := by decide +kernel }

theorem SymbolDirectory.answers_in_pair :
    ∃ linkage, Linkage.read pairForm.space pairForm.layout pairForm.address pairForm.byteSize =
        .ok linkage ∧
      linkage.symbols.find? "b" = pair.symbols[2]? := by
  have reachable : pair.IsReachable := by
    rintro (_ | _ | _ | index) name ⟨behind, carried⟩
    · exact absurd behind (by decide)
    · cases carried
      exact ⟨0, 1, by decide +kernel, rfl⟩
    · cases carried
      exact ⟨1, 2, by decide +kernel, rfl⟩
    · cases carried
  obtain ⟨answer, right, same⟩ := exists_answer_in_every_presentation pair reachable
  obtain ⟨linkage, read, found⟩ := same pairForm
  refine ⟨linkage, read, ?_⟩
  rw [(found "b" (by decide)).1]
  apply (right "b" (by decide)).2.2 2
  · exact ⟨by decide, by decide +kernel⟩
  · rintro (_ | _ | _ | index) ⟨behind, carried⟩
    · exact absurd behind (by decide)
    · exact absurd carried (by decide +kernel)
    · rfl
    · cases carried

end ElfLens
