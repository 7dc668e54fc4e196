import ElfLens.AddressSpace
import ElfLens.Dynamic.Entry
import ElfLens.Symbol
import ElfLens.SymbolHash
/-!
The tables with which the dynamic linker finds a symbol: strings, symbols and hash chains. They are
located by the dynamic array and read once. The number of symbols is the number of hash chain links,
because nothing else in a loaded image tells it.
-/

set_option autoImplicit false

namespace ElfLens

/-- Where a table lies and how large it and its records are; a table at address zero is absent. -/
structure TableLocation where
  address : UInt64
  byteSize : UInt64
  stride : UInt64
  deriving DecidableEq, Repr

def TableLocation.isPresent (location : TableLocation) : Bool := location.address ≠ 0

/-- The bytes of a table that is there and is not empty, when they can be read. -/
def AddressSpace.tableAt? (space : AddressSpace) (location : TableLocation) : Option Bytes :=
  if location.isPresent ∧ location.byteSize ≠ 0 then
    (space.readTable location.address location.byteSize).toOption
  else none

/-- The address that the values of a tag give: the first that is not zero once it is resolved. -/
def DynamicEntry.addressOf (domain : AddressDomain) (tag : Int64) (entries : List DynamicEntry) :
    UInt64 :=
  firstNonzero ((valuesOf tag entries).map domain.resolve)

/-- The size that the values of a tag give: the first that is not zero. -/
def DynamicEntry.sizeOf (tag : Int64) (entries : List DynamicEntry) : UInt64 :=
  firstNonzero (valuesOf tag entries)

/-- The tables with which symbols are found, as far as they are there. -/
structure DynamicSymbols where
  stringLocation : TableLocation
  strings? : Option Bytes
  symbolLocation : TableLocation
  symbols? : Option Table
  hashAddress : UInt64
  hash? : Option HashTable

namespace DynamicSymbols

/-- The hash table at an address: its counts are read first, then as much as they call for. -/
def readHash? (space : AddressSpace) (layout : Layout) (address : UInt64) : Option HashTable := do
  if address = 0 then none
  let head ← (space.readTable address HashTable.headerSize.toUInt64).toOption
  let (buckets, chains) ← ((HashTable.counts layout.order).decode head).toOption
  let bytes ← (space.readTable address (HashTable.byteSize buckets chains).toUInt64).toOption
  (HashTable.ofBytes? layout.order bytes).toOption

def strideOr (stride : UInt64) (natural : Nat) : UInt64 :=
  if stride = 0 then natural.toUInt64 else stride

def locate (space : AddressSpace) (layout : Layout) (entries : List DynamicEntry) :
    DynamicSymbols :=
  let address := fun tag => DynamicEntry.addressOf space.domain tag entries
  let size := fun tag => DynamicEntry.sizeOf tag entries
  let stringLocation : TableLocation :=
    { address := address DynamicTag.strings, byteSize := size DynamicTag.stringsSize, stride := 0 }
  let hashAddress := address DynamicTag.hash
  let hash? := readHash? space layout hashAddress
  let count := (hash?.map (·.chains.size)).getD 0
  let stride := strideOr (size DynamicTag.symbolStride) layout.symbolSize
  let symbolLocation : TableLocation :=
    { address := address DynamicTag.symbols, stride
      byteSize := (Word.times? count.toUInt64 stride).getD 0 }
  { stringLocation, hashAddress, hash?, symbolLocation
    strings? := space.tableAt? stringLocation
    symbols? := (space.tableAt? symbolLocation).bind fun bytes =>
      (Table.make? bytes stride.toNat layout).toOption }

/-- The number of symbols, which is the number of hash chain links. -/
def count (tables : DynamicSymbols) : Nat := (tables.hash?.map (·.chains.size)).getD 0

def symbol? (tables : DynamicSymbols) (index : Nat) : Option Symbol :=
  tables.symbols?.bind (·.symbol? index)

/-- The symbol at an index, or why there is none. -/
def symbolAt (tables : DynamicSymbols) (index : Nat) : Except Fault Symbol :=
  match tables.symbols? with
  | none => .error .noSymbols
  | some table =>
    match table.symbol? index with
    | some symbol => .ok symbol
    | none =>
      let stride := tables.symbolLocation.stride.toNat
      .error (.truncatedTable (Word.capped (index * stride)).toNat stride)

/-- Every symbol that can be read, in order. -/
def symbols (tables : DynamicSymbols) : List Symbol :=
  (List.range tables.count).filterMap tables.symbol?

def stringAt (tables : DynamicSymbols) (offset : UInt64) : Except Fault String :=
  match tables.strings? with
  | none => .error .noStrings
  | some strings => strings.ctext offset.toNat

def name (tables : DynamicSymbols) (symbol : Symbol) : Except Fault String :=
  tables.stringAt symbol.nameOffset.toUInt64

/-- The name of the symbol at an index, as the string table holds it. -/
def nameAt? (tables : DynamicSymbols) (index : Nat) : Option Bytes := do
  let strings ← tables.strings?
  let symbol ← tables.symbol? index
  strings.cstring? symbol.nameOffset.toNat

def carries (tables : DynamicSymbols) (name : Bytes) (index : Nat) : Bool :=
  tables.nameAt? index = some name

/-- The symbol that the hash chains lead to, or which table is missing. -/
def findHashed (tables : DynamicSymbols) (name : String) : Except Fault (Option Symbol) :=
  match tables.hash?, tables.strings?, tables.symbols? with
  | none, _, _ => .error .noHash
  | some _, none, _ => .error .noStrings
  | some _, some _, none => .error .noSymbols
  | some hash, some _, some _ =>
    let bytes := Bytes.ofText name
    .ok ((hash.lookup bytes fun index => tables.carries bytes index.toNat).bind fun index =>
      tables.symbol? index.toNat)

def find? (tables : DynamicSymbols) (name : String) : Option Symbol :=
  ((tables.findHashed name).toOption).join

/-- The first symbol of a name in the order of the table, with no use made of the hash chains. -/
def scan? (tables : DynamicSymbols) (name : String) : Option Symbol :=
  ((List.range tables.count).find? (tables.carries (Bytes.ofText name))).bind tables.symbol?

end DynamicSymbols
end ElfLens
