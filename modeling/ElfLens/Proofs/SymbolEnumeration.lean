import ElfLens.Proofs.ChainSearch
import ElfLens.Proofs.MissingTables
import ElfLens.Proofs.PositionIndependence
import ElfLens.Proofs.RecordTables

set_option autoImplicit false

namespace ElfLens

theorem AddressSpace.size_of_tableAt? {space : AddressSpace} {location : TableLocation}
    {bytes : Bytes} (read : space.tableAt? location = some bytes) :
    bytes.size = location.byteSize.toNat ∧ location.byteSize ≠ 0 := by
  unfold tableAt? at read
  split at read
  · rename_i there
    exact ⟨size_of_readTable (eq_ok_of_toOption read), there.2⟩
  · cases read

namespace DynamicSymbols

/-- A hash table that is read has as many links as its bytes say. -/
theorem exists_counts_of_readHash? {space : AddressSpace} {layout : Layout} {address : UInt64}
    {hash : HashTable} (read : readHash? space layout address = some hash) :
    ∃ bytes buckets chains, HashTable.ofBytes? layout.order bytes = .ok hash ∧
      (HashTable.counts layout.order).decode bytes = .ok (buckets, chains) ∧
      hash.chains.size = chains.toNat := by
  unfold readHash? at read
  split at read
  · cases read
  · obtain ⟨_, -, read⟩ := Option.bind_eq_some_iff.mp read
    obtain ⟨_, -, read⟩ := Option.bind_eq_some_iff.mp read
    obtain ⟨bytes, -, read⟩ := Option.bind_eq_some_iff.mp read
    have parsed := eq_ok_of_toOption read
    obtain ⟨buckets, chains, counted, holds⟩ := RawHashTable.exists_isTable parsed
    exact ⟨bytes, buckets, chains, parsed, counted, holds.chainCount⟩

/-- The table has just the bytes of its symbols, and as many symbols as the hash table has links,
which is what the bytes of the hash table say. -/
structure IsSized (tables : DynamicSymbols) (layout : Layout) (table : Table) : Prop where
  same : table.layout = layout
  stride : table.stride = tables.symbolLocation.stride.toNat
  byteSize : table.bytes.size = tables.count * tables.symbolLocation.stride.toNat
  count : ∃ hash bytes buckets chains, tables.hash? = some hash ∧
    HashTable.ofBytes? layout.order bytes = .ok hash ∧
    (HashTable.counts layout.order).decode bytes = .ok (buckets, chains) ∧
    tables.count = hash.chains.size ∧ tables.count = chains.toNat

/-- There is a symbol at every index below the count and at no other, and the list of the symbols
has each of them at its index. -/
structure IsIndexed (tables : DynamicSymbols) : Prop where
  isOk_iff : ∀ index, (tables.symbolAt index).isOk ↔ index < tables.count
  symbols : tables.symbols.map .ok = (List.range tables.count).map tables.symbolAt
  index : ∀ (place : Nat) (symbol : Symbol), tables.symbols[place]? = some symbol →
    symbol.index = place

/-- Where there are symbols, there is a hash table, and its bytes say how many. -/
theorem exists_hash_of_count_ne_zero {tables : DynamicSymbols} {space : AddressSpace}
    {layout : Layout} {address : UInt64} (hashed : tables.hash? = readHash? space layout address)
    (nonempty : tables.count ≠ 0) :
    ∃ hash bytes buckets chains, tables.hash? = some hash ∧
      HashTable.ofBytes? layout.order bytes = .ok hash ∧
      (HashTable.counts layout.order).decode bytes = .ok (buckets, chains) ∧
      tables.count = hash.chains.size ∧ tables.count = chains.toNat := by
  cases present : tables.hash? with
  | none =>
      rw [count, present] at nonempty
      exact absurd rfl nonempty
  | some hash =>
      obtain ⟨bytes, buckets, chains, parsed, counted, links⟩ :=
        exists_counts_of_readHash? (hashed.symm.trans present)
      have length : tables.count = hash.chains.size := by
        rw [count, present]
        rfl
      exact ⟨hash, bytes, buckets, chains, rfl, parsed, counted, length, length.trans links⟩

theorem isSized_locate {space : AddressSpace} {layout : Layout} {entries : List DynamicEntry}
    {table : Table} (resolved : (locate space layout entries).symbols? = some table) :
    (locate space layout entries).IsSized layout table := by
  generalize located : locate space layout entries = tables at resolved
  have hashed : tables.hash? = readHash? space layout tables.hashAddress := by
    rw [← located]
    rfl
  have sized : tables.symbolLocation.byteSize =
      (Word.times? tables.count.toUInt64 tables.symbolLocation.stride).getD 0 := by
    rw [← located]
    rfl
  have symbols : tables.symbols? = (space.tableAt? tables.symbolLocation).bind fun bytes =>
      (Table.make? bytes tables.symbolLocation.stride.toNat layout).toOption := by
    rw [← located]
    rfl
  rw [resolved] at symbols
  obtain ⟨bytes, read, made⟩ := Option.bind_eq_some_iff.mp symbols.symm
  obtain ⟨rfl, stride, same⟩ := Table.of_make? (eq_ok_of_toOption made)
  obtain ⟨size, nonzero⟩ := AddressSpace.size_of_tableAt? read
  -- Only a table with a size is read, so the product is one, and there is something to count.
  have product : tables.symbolLocation.byteSize.toNat =
      tables.count.toUInt64.toNat * tables.symbolLocation.stride.toNat := by
    rw [sized] at nonzero ⊢
    exact Word.toNat_times?_getD nonzero
  have nonempty : tables.count ≠ 0 := by
    intro empty
    apply nonzero
    apply UInt64.toNat_inj.mp
    rw [product, empty]
    exact Nat.zero_mul _
  obtain ⟨hash, head, buckets, chains, present, parsed, counted, length, links⟩ :=
    exists_hash_of_count_ne_zero hashed nonempty
  have exact_count : tables.count.toUInt64.toNat = tables.count := by
    have bound := chains.toNat_lt
    apply UInt64.toNat_ofNat_of_lt'
    rw [Word.size_eq]
    omega
  refine ⟨same, stride, ?_, hash, head, buckets, chains, present, parsed, counted, length, links⟩
  rw [size, product, exact_count]

/-- There is a symbol at every index below the count and at no other. -/
def IsFull (tables : DynamicSymbols) : Prop :=
  ∀ index, (tables.symbol? index).isSome ↔ index < tables.count

section Indexed

variable {tables : DynamicSymbols} {layout : Layout} {table : Table}

theorem IsSized.isFull (sized : tables.IsSized layout table)
    (resolved : tables.symbols? = some table)
    (wide : layout.symbolSize ≤ tables.symbolLocation.stride.toNat) : tables.IsFull := by
  intro index
  have size : table.size = tables.count := by
    rw [Table.size, sized.byteSize, ← sized.stride, Nat.mul_div_cancel _ table.stride_pos]
  rw [← size, symbol?, resolved, Option.bind_some]
  apply Symbol.isLawful_format.isSome_decode?_iff
  rw [sized.same, sized.stride]
  exact wide

theorem IsSized.symbol?_eq_none (sized : tables.IsSized layout table)
    (resolved : tables.symbols? = some table)
    (narrow : tables.symbolLocation.stride.toNat < layout.symbolSize) (index : Nat) :
    tables.symbol? index = none := by
  rw [symbol?, resolved, Option.bind_some]
  apply Symbol.isLawful_format.decode?_eq_none
  rw [sized.stride, sized.same]
  exact narrow

theorem IsFull.getElem?_symbols (full : tables.IsFull) (index : Nat) :
    tables.symbols[index]? = tables.symbol? index :=
  getElem?_filterMap_range_of_isSome_iff full index

theorem IsFull.isIndexed (full : tables.IsFull) : tables.IsIndexed where
  isOk_iff index := by
    rw [← isSome_toOption, toOption_symbolAt]
    exact full index
  symbols := by
    apply List.ext_getElem?
    intro index
    rw [List.getElem?_map, full.getElem?_symbols, List.getElem?_map]
    by_cases inside : index < tables.count
    · obtain ⟨symbol, stands⟩ := Option.isSome_iff_exists.mp ((full index).mpr inside)
      rw [List.getElem?_range inside, stands, Option.map_some, Option.map_some,
        symbolAt_eq_ok_iff.mpr stands]
    · have missing := inside
      rw [← full, Option.not_isSome_iff_eq_none] at missing
      rw [missing, List.getElem?_eq_none (by simpa using inside)]
      rfl
  index place symbol stands := by
    rw [full.getElem?_symbols] at stands
    exact index_of_symbol? stands

end Indexed
end DynamicSymbols

namespace Image

section Views

variable {image : Image} {linkage : Linkage}

theorem dynamicSymbols_eq (linked : image.linkage? = some linkage) :
    image.dynamicSymbols = linkage.symbols.symbols.map image.dynamicView := by
  rw [dynamicSymbols, linked]
  rfl

theorem dynamicSymbol?_eq (linked : image.linkage? = some linkage) (index : Nat) :
    image.dynamicSymbol? index = (linkage.symbols.symbol? index).map image.dynamicView := by
  rw [dynamicSymbol?, linked]
  rfl

theorem findDynamic?_eq (linked : image.linkage? = some linkage) (text : String) :
    image.findDynamic? text = (linkage.symbols.find? text).map image.dynamicView := by
  rw [findDynamic?, linked]
  rfl

theorem scanDynamic?_eq (linked : image.linkage? = some linkage) (text : String) :
    image.scanDynamic? text = (linkage.symbols.scan? text).map image.dynamicView := by
  rw [scanDynamic?, linked]
  rfl

theorem getElem?_dynamicSymbols (linked : image.linkage? = some linkage)
    (full : linkage.symbols.IsFull) (index : Nat) :
    image.dynamicSymbols[index]? = image.dynamicSymbol? index := by
  rw [dynamicSymbols_eq linked, List.getElem?_map, full.getElem?_symbols, dynamicSymbol?_eq linked]

/-- What a name leads to, along the chains or along the table, is a symbol at its own index. -/
theorem exists_symbol?_of_found (linked : image.linkage? = some linkage) {text : String}
    {view : SymbolView}
    (found : image.findDynamic? text = some view ∨ image.scanDynamic? text = some view) :
    ∃ symbol, linkage.symbols.symbol? symbol.index = some symbol ∧
      image.dynamicView symbol = view := by
  rw [findDynamic?_eq linked, scanDynamic?_eq linked, Option.map_eq_some_iff,
    Option.map_eq_some_iff] at found
  rcases found with ⟨symbol, led, same⟩ | ⟨symbol, led, same⟩
  · obtain ⟨-, -, stands⟩ := DynamicSymbols.of_find?_eq_some led
    exact ⟨symbol, stands, same⟩
  · obtain ⟨-, -, stands, -⟩ := DynamicSymbols.of_scan?_eq_some led
    exact ⟨symbol, stands, same⟩

end Views

section Loaded

variable {files : Files} {config : Config} {space : AddressSpace} {name : String}
  {path? : Option String} {image : Image} {linkage : Linkage} {table : Table}

theorem isSized_of_load (loaded : load files config space name path? = .ok image)
    (linked : image.linkage? = some linkage) (resolved : linkage.symbols.symbols? = some table) :
    linkage.symbols.IsSized image.header.layout table := by
  obtain ⟨-, header, segments, -, -, -, rfl⟩ := exists_of_load loaded
  obtain ⟨segment, byteSize, entries, rfl⟩ := exists_ofEntries_of_readLinkage? linked
  exact DynamicSymbols.isSized_locate resolved

theorem symbol?_eq_none_of_load (loaded : load files config space name path? = .ok image)
    (linked : image.linkage? = some linkage)
    (narrow : linkage.symbols.symbolLocation.stride.toNat < image.header.layout.symbolSize)
    (index : Nat) : linkage.symbols.symbol? index = none := by
  cases resolved : linkage.symbols.symbols? with
  | none => rw [DynamicSymbols.symbol?, resolved, Option.bind_none]
  | some table =>
      exact (isSized_of_load loaded linked resolved).symbol?_eq_none resolved narrow index

/-- If one symbol can be read, they are far enough apart for all of them to be. -/
theorem isFull_of_symbol? (loaded : load files config space name path? = .ok image)
    (linked : image.linkage? = some linkage) {index : Nat} {symbol : Symbol}
    (stands : linkage.symbols.symbol? index = some symbol) : linkage.symbols.IsFull := by
  obtain ⟨table, resolved, -⟩ := Option.bind_eq_some_iff.mp stands
  apply (isSized_of_load loaded linked resolved).isFull resolved
  apply Nat.le_of_not_lt
  intro narrow
  rw [symbol?_eq_none_of_load loaded linked narrow] at stands
  cases stands

/-- The dynamic symbols of an image, when their table is there, have just the bytes that the links
of the hash table call for. If they are as far apart as a symbol is long, there is one at every
index below the number of links and at no other, and the list has them at their indices. What a name
leads to is the very view that its index gives and that the list has there, so that its name, its
slot, its stub and its address are the same as well. If they are closer together, there are none. -/
theorem dynamicSymbols_by_index_and_name
    (loaded : load files config space name path? = .ok image)
    (linked : image.linkage? = some linkage) :
    let stride := linkage.symbols.symbolLocation.stride.toNat
    (∀ table, linkage.symbols.symbols? = some table →
      linkage.symbols.IsSized image.header.layout table ∧
        (image.header.layout.symbolSize ≤ stride → linkage.symbols.IsIndexed)) ∧
    (∀ text view, image.findDynamic? text = some view ∨ image.scanDynamic? text = some view →
      image.dynamicSymbols[view.symbol.index]? = some view ∧
        image.dynamicSymbol? view.symbol.index = some view) ∧
    (stride < image.header.layout.symbolSize →
      linkage.symbols.symbols = [] ∧ image.dynamicSymbols = [] ∧
        (∀ index, image.dynamicSymbol? index = none) ∧
        ∀ text, image.findDynamic? text = none ∧ image.scanDynamic? text = none ∧
          linkage.gotEntry? text = none ∧ linkage.gotPltEntry? text = none) := by
  refine ⟨?_, ?_, ?_⟩
  · intro table resolved
    have sized := isSized_of_load loaded linked resolved
    exact ⟨sized, fun wide => (sized.isFull resolved wide).isIndexed⟩
  · intro text view found
    obtain ⟨symbol, stands, rfl⟩ := exists_symbol?_of_found linked found
    have indexed : image.dynamicSymbol? symbol.index = some (image.dynamicView symbol) := by
      rw [dynamicSymbol?_eq linked, stands, Option.map_some]
    refine ⟨?_, indexed⟩
    exact (getElem?_dynamicSymbols linked (isFull_of_symbol? loaded linked stands) _).trans indexed
  · intro narrow
    have unread := symbol?_eq_none_of_load loaded linked narrow
    have empty : linkage.symbols.symbols = [] :=
      List.filterMap_eq_nil_iff.mpr fun index _ => unread index
    refine ⟨empty, ?_, ?_, ?_⟩
    · rw [dynamicSymbols_eq linked, empty, List.map_nil]
    · intro index
      rw [dynamicSymbol?_eq linked, unread, Option.map_none]
    · intro text
      obtain ⟨found, scanned, slot, pltSlot⟩ := Linkage.finds_nothing_of_uncarried
        (DynamicSymbols.carries_eq_false_of_unread unread (Bytes.ofText text))
      rw [findDynamic?_eq linked, scanDynamic?_eq linked, found, scanned]
      exact ⟨rfl, rfl, slot, pltSlot⟩

end Loaded

theorem oneSymbolObject_indexed :
    ∃ image linkage view,
      ofBytes (fun _ => none) {} oneSymbolObject 0x1000 none = .ok image ∧
      image.linkage? = some linkage ∧ linkage.symbols.IsIndexed ∧
      image.findDynamic? "ab" = some view ∧ view.address? = some 0x1010 ∧
      image.dynamicSymbols[1]? = some view ∧ image.dynamicSymbol? 1 = some view := by
  have told : ∃ image ∈ (ofBytes (fun _ => none) {} oneSymbolObject 0x1000 none).toOption,
      ∃ linkage ∈ image.linkage?, ∃ view ∈ image.findDynamic? "ab",
        linkage.symbols.symbols?.isSome ∧
          image.header.layout.symbolSize ≤ linkage.symbols.symbolLocation.stride.toNat ∧
          view.symbol.index = 1 ∧ view.address? = some 0x1010 := by decide +kernel
  obtain ⟨image, loaded, linkage, linked, view, found, present, wide, place, address⟩ := told
  obtain ⟨table, resolved⟩ := Option.isSome_iff_exists.mp present
  have loaded := eq_ok_of_toOption loaded
  obtain ⟨whole, same, -⟩ := dynamicSymbols_by_index_and_name loaded linked
  obtain ⟨listed, indexed⟩ := same "ab" view (.inl found)
  rw [place] at listed indexed
  exact ⟨image, linkage, view, loaded, linked, (whole table resolved).2 wide, found, address,
    listed, indexed⟩

end Image
end ElfLens
