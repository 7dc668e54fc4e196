import ElfLens.Proofs.MappedSpace
import ElfLens.Proofs.Packing
import ElfLens.Proofs.SymbolSearch

set_option autoImplicit false

namespace ElfLens

theorem AddressDomain.resolve_ne_zero (domain : AddressDomain) {address : UInt64}
    (nonzero : address ≠ 0) : domain.resolve address ≠ 0 := by
  cases domain with
  | linked => exact nonzero
  | loaded base =>
      change (if address < base then (Word.plus? base address).getD address else address) ≠ 0
      split
      · cases sum : Word.plus? base address with
        | none => exact nonzero
        | some moved =>
            have exact_sum := Word.plus?_eq_some_iff.mp sum
            intro zero
            rw [Option.getD_some] at zero
            rw [zero, UInt64.toNat_zero] at exact_sum
            apply nonzero
            apply UInt64.toNat_inj.mp
            rw [UInt64.toNat_zero]
            omega
      · exact nonzero

namespace AddressSpace

/-- A table is read whole, and one without any bytes is absent. -/
theorem tableAt?_of_holds {memory : Memory} {base high : UInt64} {limits : Limits} {bytes : Bytes}
    {location : TableLocation} (lies : memory.Holds location.address bytes)
    (present : location.address ≠ 0) (size : location.byteSize.toNat = bytes.size)
    (allowed : bytes.size ≤ limits.tableBytes.toNat) :
    (mapped memory base high limits).tableAt? location =
      if bytes.size = 0 then none else some bytes := by
  by_cases blank : bytes.size = 0
  · have zero : location.byteSize = 0 := by
      apply UInt64.toNat_inj.mp
      rw [size, blank, UInt64.toNat_zero]
    simp [tableAt?, zero, blank]
  · have nonzero : location.byteSize ≠ 0 := by
      intro zero
      rw [zero, UInt64.toNat_zero] at size
      omega
    have whole := readTable_of_holds base high lies
      (show 0 < location.byteSize.toNat by omega) (Nat.le_of_eq size) allowed
    rw [size, Array.extract_size] at whole
    simp [tableAt?, TableLocation.isPresent, present, nonzero, blank, whole, Except.toOption]

end AddressSpace

theorem DynamicEntry.addressOf_of_single {domain : AddressDomain} {tag : Int64}
    {entries : List DynamicEntry} {value : UInt64} (told : valuesOf tag entries = [value])
    (nonzero : value ≠ 0) : addressOf domain tag entries = domain.resolve value := by
  have moved := domain.resolve_ne_zero nonzero
  rw [addressOf, told]
  simp [firstNonzero, moved]

theorem DynamicEntry.sizeOf_of_single {tag : Int64} {entries : List DynamicEntry} {value : UInt64}
    (told : valuesOf tag entries = [value]) : DynamicEntry.sizeOf tag entries = value := by
  rw [DynamicEntry.sizeOf, told]
  by_cases zero : value = 0 <;> simp [firstNonzero, zero]

/-- What the tables with which symbols are found say. -/
structure SymbolDirectory where
  strings : Bytes
  symbols : List Symbol
  buckets : List UInt32
  chains : List UInt32
  numbered : ∀ (index : Nat) (symbol : Symbol), symbols[index]? = some symbol → symbol.index = index
  linked : chains.length = symbols.length
  hashed : 0 < buckets.length
  bucketCount : buckets.length < UInt32.size
  linkCount : chains.length < UInt32.size

namespace SymbolDirectory

def hashTable (directory : SymbolDirectory) : HashTable :=
  ⟨directory.buckets.toArray, directory.chains.toArray⟩

def nameAt? (directory : SymbolDirectory) (index : Nat) : Option Bytes :=
  directory.symbols[index]?.bind fun symbol =>
    directory.strings.cstring? symbol.nameOffset.toNat

/-- A symbol behind the reserved first one carries a name. -/
def Carries (directory : SymbolDirectory) (name : Bytes) (index : Nat) : Prop :=
  0 < index ∧ directory.nameAt? index = some name

/-- Every symbol with a name is on the chain that the hash of its name starts. -/
def IsReachable (directory : SymbolDirectory) : Prop :=
  ∀ index name, directory.Carries name index →
    ∃ steps link, directory.hashTable.onChain? name steps = some link ∧ link.toNat = index

def answer (directory : SymbolDirectory) (text : String) : Option Symbol :=
  (directory.hashTable.lookup (Bytes.ofText text) fun link =>
    directory.nameAt? link.toNat = some (Bytes.ofText text)).bind fun link =>
      directory.symbols[link.toNat]?

/-- A way in which memory holds the tables. The entries of the dynamic array may come in any order,
and others may stand between those that locate the tables; a record may be longer than a symbol. -/
structure Presentation (directory : SymbolDirectory) where
  layout : Layout
  memory : Memory
  base : UInt64
  high : UInt64
  limits : Limits
  address : UInt64
  entries : List DynamicEntry
  last : UInt64
  rest : List UInt8
  stringsAt : UInt64
  stringsSize : UInt64
  symbolsAt : UInt64
  stride : UInt64
  hashAt : UInt64
  records : Bytes
  entries_fit : ∀ entry ∈ entries, entry.Fits layout
  entries_named : ∀ entry ∈ entries, entry.tag ≠ DynamicTag.null
  last_held : layout.Holds last
  strings_told : DynamicEntry.valuesOf DynamicTag.strings entries = [stringsAt]
  stringsSize_told : DynamicEntry.valuesOf DynamicTag.stringsSize entries = [stringsSize]
  symbols_told : DynamicEntry.valuesOf DynamicTag.symbols entries = [symbolsAt]
  stride_told : DynamicEntry.valuesOf DynamicTag.symbolStride entries = [stride]
  hash_told : DynamicEntry.valuesOf DynamicTag.hash entries = [hashAt]
  strings_nonzero : stringsAt ≠ 0
  symbols_nonzero : symbolsAt ≠ 0
  hash_nonzero : hashAt ≠ 0
  strings_size : stringsSize.toNat = directory.strings.size
  stride_enough : layout.symbolSize ≤ stride.toNat
  records_size : records.size = directory.symbols.length * stride.toNat
  symbols_fit : ∀ symbol ∈ directory.symbols, symbol.Fits layout
  records_hold : ∀ (index : Nat) (symbol : Symbol), directory.symbols[index]? = some symbol →
    ∃ padding, records.slice? (index * stride.toNat) stride.toNat =
      some (symbol.encode layout ++ padding).toArray
  array_lies : memory.Holds address (DynamicEntry.encodeArray layout entries last rest).toArray
  strings_lie : memory.Holds ((AddressDomain.loaded base).resolve stringsAt) directory.strings
  symbols_lie : memory.Holds ((AddressDomain.loaded base).resolve symbolsAt) records
  hash_lies : memory.Holds ((AddressDomain.loaded base).resolve hashAt)
    (directory.hashTable.encode layout.order).toArray
  array_allowed :
    (DynamicEntry.encodeArray layout entries last rest).length ≤ limits.tableBytes.toNat
  strings_allowed : directory.strings.size ≤ limits.tableBytes.toNat
  records_allowed : records.size ≤ limits.tableBytes.toNat
  hash_allowed : (directory.hashTable.encode layout.order).length ≤ limits.tableBytes.toNat

theorem of_answer_eq_some {directory : SymbolDirectory} {text : String} {symbol : Symbol}
    (found : directory.answer text = some symbol) :
    ∃ index, directory.Carries (Bytes.ofText text) index ∧
      directory.symbols[index]? = some symbol := by
  obtain ⟨link, looked, stands⟩ := Option.bind_eq_some_iff.mp found
  obtain ⟨-, link_ok, carried⟩ := directory.hashTable.of_lookup_eq_some _ _ looked
  obtain ⟨nonzero, -⟩ := (directory.hashTable.isLink_iff link).mp link_ok
  refine ⟨link.toNat, ⟨?_, of_decide_eq_true carried⟩, stands⟩
  apply Nat.pos_of_ne_zero
  intro zero
  exact nonzero (UInt32.toNat_inj.mp zero)

theorem exists_answer_of_carries {directory : SymbolDirectory} (reachable : directory.IsReachable)
    {text : String} {index : Nat} (carried : directory.Carries (Bytes.ofText text) index) :
    ∃ symbol, directory.answer text = some symbol := by
  obtain ⟨steps, link, walked, rfl⟩ := reachable index _ carried
  cases looked : directory.hashTable.lookup (Bytes.ofText text)
      fun link => directory.nameAt? link.toNat = some (Bytes.ofText text) with
  | none =>
      have refused := (directory.hashTable.lookup_eq_none_iff _ _).mp looked steps link walked
      exact absurd carried.2 (of_decide_eq_false refused)
  | some other =>
      obtain ⟨-, -, also⟩ := directory.hashTable.of_lookup_eq_some _ _ looked
      obtain ⟨symbol, stands, -⟩ := Option.bind_eq_some_iff.mp (of_decide_eq_true also)
      exact ⟨symbol, by rw [answer, looked, Option.bind_some, stands]⟩

end SymbolDirectory

end ElfLens
