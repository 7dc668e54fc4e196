import ElfLens.Proofs.ImageConstruction
import ElfLens.Proofs.Packing
import ElfLens.Proofs.SymbolSearch

set_option autoImplicit false

namespace ElfLens

theorem Layout.dynamicSize_eq (layout : Layout) :
    layout.dynamicSize = layout.wordSize + layout.wordSize := by
  unfold dynamicSize wordSize Class.wordSize
  cases layout.wordClass <;> rfl

namespace DynamicEntry

/-- The entries of the records up to the null tag, or why one of them cannot be read. -/
def upToNull (reader : FieldReader DynamicEntry) : List Bytes → Except Fault (List DynamicEntry)
  | [] => .ok []
  | record :: rest => do
    let entry ← reader.decode record
    if entry.tag = DynamicTag.null then return []
    return entry :: (← upToNull reader rest)

/-- The entries of an array up to the null tag, or why one of them cannot be read. -/
def readArray (layout : Layout) (bytes : Bytes) : Except Fault (List DynamicEntry) := do
  let table ← Table.make? bytes layout.dynamicSize layout
  upToNull (fields layout) table.records

theorem takes_fields (layout : Layout) : (fields layout).Takes layout.dynamicSize := by
  rw [layout.dynamicSize_eq]
  exact ((FieldReader.exactly_signedWord layout).bind fun _ =>
    (FieldReader.exactly_word layout).map _).takes

theorem upToNull_of_decoded {reader : FieldReader DynamicEntry} {records : List Bytes}
    {entries : List DynamicEntry} (decoded : records.map reader.decode = entries.map .ok) :
    upToNull reader records = .ok (entries.takeWhile (·.tag ≠ DynamicTag.null)) := by
  induction records generalizing entries with
  | nil =>
      cases entries with
      | nil => rfl
      | cons entry entries => cases decoded
  | cons record records ih =>
      cases entries with
      | nil => cases decoded
      | cons entry entries =>
          rw [List.map_cons, List.map_cons] at decoded
          obtain ⟨here, there⟩ := List.cons.inj decoded
          rw [upToNull, here, List.takeWhile_cons]
          by_cases last : entry.tag = DynamicTag.null
          · simp only [bind, Except.bind, last, ↓reduceIte, ne_eq, not_true, decide_false]
            rfl
          · simp only [bind, Except.bind, last, ↓reduceIte, ne_eq, not_false_eq_true, decide_true,
              ih there]
            rfl

/-- No entry of an array is too short to be read, so nothing is ever left out. -/
theorem readArray_eq (layout : Layout) (bytes : Bytes) :
    readArray layout bytes = .ok (decodeArray layout bytes) := by
  let table : Table := ⟨bytes, layout.dynamicSize, layout, layout.dynamicSize_pos⟩
  have made : Table.make? bytes layout.dynamicSize layout = .ok table :=
    dif_pos layout.dynamicSize_pos
  have whole : ∀ record ∈ table.records, ∃ entry, (fields layout).decode record = .ok entry := by
    intro record listed
    obtain ⟨index, -, found⟩ := List.mem_filterMap.mp listed
    apply FieldReader.exists_decode_of_takes (takes_fields layout)
    rw [Table.size_of_record? found]
  obtain ⟨entries, read, -⟩ := exists_mapM_of_forall whole
  have decoded := mapM_eq_ok_iff.mp read
  have all : (List.range table.size).filterMap (table.decode? (fields layout)) = entries := by
    calc (List.range table.size).filterMap (table.decode? (fields layout))
        = table.records.filterMap fun record => ((fields layout).decode record).toOption := by
          rw [Table.records, List.filterMap_filterMap]
          rfl
      _ = (table.records.map (fields layout).decode).filterMap Except.toOption := by
          rw [List.filterMap_map]
          rfl
      _ = entries := by
          rw [decoded, List.filterMap_map]
          exact List.filterMap_some
  rw [readArray, decodeArray, made]
  change upToNull (fields layout) table.records = _
  rw [upToNull_of_decoded decoded, ← all]

end DynamicEntry

namespace DynamicSymbols

/-- The first table that a look-up along the hash chains misses, in the order it asks for them. -/
def missing? (tables : DynamicSymbols) : Option Fault :=
  if tables.hash?.isNone then some .noHash
  else if tables.strings?.isNone then some .noStrings
  else if tables.symbols?.isNone then some .noSymbols
  else none

/-- The symbol that the hash chains lead to, or which table is missing, or why the symbol cannot be
read. -/
def findReporting (tables : DynamicSymbols) (name : String) : Except Fault (Option Symbol) := do
  let hash ← match tables.hash? with
    | none => throw .noHash
    | some hash => pure hash
  if tables.strings?.isNone then throw .noStrings
  if tables.symbols?.isNone then throw .noSymbols
  let bytes := Bytes.ofText name
  match hash.lookup bytes fun index => tables.carries bytes index.toNat with
  | none => return none
  | some index => return some (← tables.symbolAt index.toNat)

theorem toOption_symbolAt (tables : DynamicSymbols) (index : Nat) :
    (tables.symbolAt index).toOption = tables.symbol? index := by
  unfold symbolAt symbol?
  cases tables.symbols? with
  | none => rfl
  | some table =>
      simp only [Option.bind_some]
      cases table.symbol? index with
      | none => rfl
      | some symbol => rfl

theorem symbolAt_eq_ok_iff {tables : DynamicSymbols} {index : Nat} {symbol : Symbol} :
    tables.symbolAt index = .ok symbol ↔ tables.symbol? index = some symbol := by
  rw [← toOption_symbolAt]
  constructor
  · intro read
    rw [read]
    rfl
  · exact eq_ok_of_toOption

/-- Whatever the chains lead to carries the name, so it can be read. -/
theorem findReporting_eq (tables : DynamicSymbols) (name : String) :
    tables.findReporting name = tables.findHashed name := by
  unfold findReporting findHashed
  cases hashed : tables.hash? with
  | none => rfl
  | some hash =>
      cases tables.strings? with
      | none => rfl
      | some strings =>
          cases tables.symbols? with
          | none => rfl
          | some table =>
              simp only [Option.isNone_some, Bool.false_eq_true, ↓reduceIte, pure_bind]
              cases looked : hash.lookup (Bytes.ofText name)
                  fun index => tables.carries (Bytes.ofText name) index.toNat with
              | none => rfl
              | some index =>
                  obtain ⟨-, -, carried⟩ := hash.of_lookup_eq_some _ _ looked
                  obtain ⟨-, symbol, -, stands, -⟩ := carries_iff.mp carried
                  simp only [symbolAt_eq_ok_iff.mpr stands, Option.bind_some, stands]
                  rfl

theorem findReporting_eq_error_iff {tables : DynamicSymbols} {name : String} {fault : Fault} :
    tables.findReporting name = .error fault ↔ tables.missing? = some fault := by
  rw [findReporting_eq, findHashed, missing?]
  cases tables.hash? with
  | none => simp
  | some hash =>
      cases tables.strings? with
      | none => simp
      | some strings =>
          cases tables.symbols? with
          | none => simp
          | some table => simp

theorem find?_eq_some_iff {tables : DynamicSymbols} {name : String} {symbol : Symbol} :
    tables.find? name = some symbol ↔ tables.findReporting name = .ok (some symbol) := by
  rw [findReporting_eq, find?]
  cases tables.findHashed name with
  | error fault => simp [Except.toOption]
  | ok found => simp [Except.toOption]

theorem carries_eq_false_of_unread {tables : DynamicSymbols}
    (unread : ∀ index, tables.symbol? index = none) (name : Bytes) (index : Nat) :
    tables.carries name index = false := by
  apply Bool.eq_false_iff.mpr
  intro carried
  obtain ⟨-, symbol, -, stands, -⟩ := carries_iff.mp carried
  rw [unread] at stands
  cases stands

/-- Without strings or without symbols, no name is carried anywhere. -/
theorem carries_eq_false_of_absent {tables : DynamicSymbols}
    (absent : tables.strings? = none ∨ tables.symbols? = none) (name : Bytes) (index : Nat) :
    tables.carries name index = false := by
  rcases absent with none | none
  · rw [carries, nameAt?, none]
    rfl
  · apply carries_eq_false_of_unread
    intro index
    rw [symbol?, none, Option.bind_none]

end DynamicSymbols

namespace Linkage

/-- Reads the dynamic array, with a fault for any entry that cannot be read, and everything that it
locates. -/
def readReporting (space : AddressSpace) (layout : Layout) (address byteSize : UInt64) :
    Except Fault Linkage := do
  let bytes ← space.readTable address byteSize
  let entries ← DynamicEntry.readArray layout bytes
  return ofEntries space layout address byteSize entries

theorem readReporting_eq (space : AddressSpace) (layout : Layout) (address byteSize : UInt64) :
    readReporting space layout address byteSize = read space layout address byteSize := by
  unfold readReporting read
  simp only [DynamicEntry.readArray_eq]
  rfl

theorem slot?_eq_none_of_uncarried {linkage : Linkage} {name : String}
    (uncarried : ∀ index, linkage.symbols.carries (Bytes.ofText name) index = false)
    (table? : Option RelocationTable) : linkage.slot? table? name = none := by
  unfold slot?
  cases table? with
  | none => rfl
  | some table =>
      have refused : (table.search fun index =>
          linkage.symbols.carries (Bytes.ofText name) index.toNat).found = none := by
        rw [RelocationTable.search, Search.found_run, List.find?_eq_none]
        intro relocation _
        rw [uncarried]
        exact Bool.false_ne_true
      simp only [Option.bind_some, RelocationTable.findSlot?, refused, Option.map_none]

/-- Nothing is found of a name that no symbol carries. -/
theorem finds_nothing_of_uncarried {linkage : Linkage} {name : String}
    (uncarried : ∀ index, linkage.symbols.carries (Bytes.ofText name) index = false) :
    linkage.symbols.find? name = none ∧ linkage.symbols.scan? name = none ∧
      linkage.gotEntry? name = none ∧ linkage.gotPltEntry? name = none := by
  refine ⟨?_, ?_, ?_, ?_⟩
  · exact DynamicSymbols.find?_eq_none_iff.mpr fun index _ => uncarried index
  · exact DynamicSymbols.scan?_eq_none_iff.mpr fun index _ => uncarried index
  · unfold gotEntry?
    rw [slot?_eq_none_of_uncarried uncarried, slot?_eq_none_of_uncarried uncarried]
    rfl
  · exact slot?_eq_none_of_uncarried uncarried _

/-- A dynamic array is read exactly if its bytes can be, whatever its entries are and lead to. A
look-up fails exactly if a table is missing, with the first of hash table, strings and symbols that
is; otherwise it finds what it finds without reports. Without strings or without symbols, neither a
symbol nor a slot is found for any name. -/
theorem faults_of_missing_tables (space : AddressSpace) (layout : Layout)
    (address byteSize : UInt64) :
    (∀ fault, readReporting space layout address byteSize = .error fault ↔
      space.readTable address byteSize = .error fault) ∧
    ((readReporting space layout address byteSize).isOk ↔
      (space.readTable address byteSize).isOk) ∧
    readReporting space layout address byteSize = read space layout address byteSize ∧
    ∀ linkage, readReporting space layout address byteSize = .ok linkage → ∀ name,
      (∀ fault, linkage.symbols.findReporting name = .error fault ↔
        linkage.symbols.missing? = some fault) ∧
      (∀ symbol, linkage.symbols.find? name = some symbol ↔
        linkage.symbols.findReporting name = .ok (some symbol)) ∧
      linkage.symbols.findReporting name = linkage.symbols.findHashed name ∧
      (linkage.symbols.strings? = none ∨ linkage.symbols.symbols? = none →
        linkage.symbols.find? name = none ∧ linkage.symbols.scan? name = none ∧
          linkage.gotEntry? name = none ∧ linkage.gotPltEntry? name = none) := by
  refine ⟨?_, ?_, readReporting_eq space layout address byteSize, ?_⟩
  · intro fault
    rw [readReporting_eq, read]
    cases space.readTable address byteSize with
    | error other =>
        constructor
        · intro same
          cases same
          rfl
        · intro same
          cases same
          rfl
    | ok bytes =>
        constructor
        · intro same
          cases same
        · intro same
          cases same
  · rw [readReporting_eq]
    exact isOk_read_iff space layout address byteSize
  · intro linkage _ name
    refine ⟨fun fault => DynamicSymbols.findReporting_eq_error_iff,
      fun symbol => DynamicSymbols.find?_eq_some_iff,
      linkage.symbols.findReporting_eq name, ?_⟩
    intro absent
    exact finds_nothing_of_uncarried
      (DynamicSymbols.carries_eq_false_of_absent absent (Bytes.ofText name))

/-- A 64-bit array with strings, hash chains of three links and a relocation of the second symbol,
whose symbols are so far apart that their table has no size. -/
def overlongStride : Bytes :=
  let entries : List DynamicEntry :=
    [⟨DynamicTag.strings, 128⟩, ⟨DynamicTag.stringsSize, 4⟩, ⟨DynamicTag.symbols, 128⟩,
      ⟨DynamicTag.symbolStride, 0x8000000000000000⟩, ⟨DynamicTag.hash, 132⟩,
      ⟨DynamicTag.rel, 156⟩, ⟨DynamicTag.relSize, 16⟩]
  let hash : HashTable := ⟨#[1], #[0, 2, 0]⟩
  let relocation : Relocation := ⟨0x30, 1, 6, 0⟩
  (DynamicEntry.encodeArray ⟨.elf64, .little⟩ entries 0 [] ++ [0, 97, 98, 0] ++
    hash.encode .little ++ relocation.encode ⟨.elf64, .little⟩ .rel).toArray

theorem overlongStride_finds_nothing :
    ∃ linkage, readReporting (.mapped (.ofBytes 0x1000 overlongStride) 0x1000 0x10ac {})
        ⟨.elf64, .little⟩ 0x1000 128 = .ok linkage ∧
      linkage.relocs.rel?.isSome ∧ linkage.symbols.symbols? = none ∧
      linkage.symbols.findReporting "ab" = .error .noSymbols ∧
      linkage.symbols.find? "ab" = none ∧ linkage.gotEntry? "ab" = none := by
  let space : AddressSpace := .mapped (.ofBytes 0x1000 overlongStride) 0x1000 0x10ac {}
  have told : (readReporting space ⟨.elf64, .little⟩ 0x1000 128).toOption.map (fun linkage =>
      (linkage.relocs.rel?.isSome, linkage.symbols.symbols?.isNone, linkage.symbols.missing?)) =
      some (true, true, some .noSymbols) := by decide +kernel
  obtain ⟨linkage, read, parts⟩ := exists_of_toOption_map told
  obtain ⟨relocs, rest⟩ := Prod.mk.inj parts
  obtain ⟨symbols, missing⟩ := Prod.mk.inj rest
  have absent : linkage.symbols.symbols? = none := Option.isNone_iff_eq_none.mp symbols
  obtain ⟨-, -, -, faults⟩ := faults_of_missing_tables space ⟨.elf64, .little⟩ 0x1000 128
  obtain ⟨reports, -, -, nothing⟩ := faults linkage read "ab"
  obtain ⟨found, -, slot, -⟩ := nothing (.inr absent)
  exact ⟨linkage, read, relocs, absent, (reports .noSymbols).mpr missing, found, slot⟩

end Linkage
end ElfLens
