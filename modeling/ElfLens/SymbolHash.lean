import ElfLens.FieldReader
import ElfLens.Search

set_option autoImplicit false

namespace ElfLens

namespace SymbolHash

/-- Takes one more byte of a name into a hash whose high four bits are clear. -/
def step (hash : UInt32) (byte : UInt8) : UInt32 :=
  let mixed := (hash <<< 4) + byte.toUInt32
  let high := mixed &&& 0xf0000000
  (mixed ^^^ (high >>> 24)) &&& ~~~high

def hash (name : Bytes) : UInt32 := name.foldl step 0

/-- Takes one more byte of a name into a hash whose high four bits may be set. -/
def looseStep (hash : UInt32) (byte : UInt8) : UInt32 :=
  let mixed := (hash <<< 4) + byte.toUInt32
  mixed ^^^ ((mixed >>> 24) &&& 0xf0)

/-- The hash of a name, with the high four bits cleared once at the end. -/
def looseHash (name : Bytes) : UInt32 := name.foldl looseStep 0 &&& 0x0fffffff

end SymbolHash

/-- The heads of the chains and the links between symbols of one chain. -/
structure HashTable where
  buckets : Array UInt32
  chains : Array UInt32
  deriving DecidableEq, Repr

namespace HashTable

/-- The size of the two counts in front of the words. -/
def headerSize : Nat := 8

/-- Reads the number of buckets and the number of links. -/
def counts (order : Endian) : FieldReader (UInt32 × UInt32) := do
  let buckets ← FieldReader.u32 order
  let chains ← FieldReader.u32 order
  return (buckets, chains)

def byteSize (buckets chains : UInt32) : Nat := (2 + buckets.toNat + chains.toNat) * 4

/-- The four-byte numbers that the bytes spell, less a last incomplete one. -/
def words (order : Endian) : List UInt8 → List UInt32
  | a :: b :: c :: d :: rest => (order.value [a, b, c, d]).toUInt32 :: words order rest
  | _ => []

/-- The table that the bytes hold; bytes behind it are ignored. -/
def ofBytes? (order : Endian) (bytes : Bytes) : Except Fault HashTable := do
  let (buckets, chains) ← (counts order).decode bytes
  let needed := byteSize buckets chains
  if bytes.size < needed then throw (.truncatedTable 0 needed)
  let all := (words order ((bytes.extract headerSize needed).toList)).toArray
  return { buckets := all.take buckets.toNat, chains := all.drop buckets.toNat }

/-- The links from an index on: at most `steps` of them, and none at zero or past the last link. -/
def chainFrom (table : HashTable) : Nat → UInt32 → List UInt32
  | 0, _ => []
  | steps + 1, index =>
    if index = 0 then []
    else
      match table.chains[index.toNat]? with
      | none => []
      | some next => index :: table.chainFrom steps next

def bucket? (table : HashTable) (name : Bytes) : Option UInt32 :=
  table.buckets[(SymbolHash.hash name).toNat % table.buckets.size]?

def candidates (table : HashTable) (name : Bytes) : List UInt32 :=
  match table.bucket? name with
  | none => []
  | some index => table.chainFrom table.chains.size index

/-- The index is that of a link; zero ends a chain. -/
def isLink (table : HashTable) (index : UInt32) : Bool :=
  index ≠ 0 ∧ index.toNat < table.chains.size

/-- The symbol so many links behind the first one on the chain of a name, however many they are. -/
def onChain? (table : HashTable) (name : Bytes) : Nat → Option UInt32
  | 0 => (table.bucket? name).filter table.isLink
  | steps + 1 =>
    (table.onChain? name steps).bind fun index =>
      table.chains[index.toNat]?.filter table.isLink

def search (table : HashTable) (name : Bytes) (carries : UInt32 → Bool) : Search UInt32 :=
  Search.run carries (table.candidates name)

def lookup (table : HashTable) (name : Bytes) (carries : UInt32 → Bool) : Option UInt32 :=
  (table.search name carries).found

theorem onChain?_isLink {table : HashTable} {name : Bytes} {steps : Nat} {index : UInt32}
    (reached : table.onChain? name steps = some index) : table.isLink index := by
  cases steps with
  | zero => exact (Option.filter_eq_some_iff.mp reached).2
  | succ steps =>
    obtain ⟨_, _, next⟩ := Option.bind_eq_some_iff.mp reached
    exact (Option.filter_eq_some_iff.mp next).2

theorem length_chainFrom_le (table : HashTable) (steps : Nat) (index : UInt32) :
    (table.chainFrom steps index).length ≤ steps := by
  induction steps generalizing index with
  | zero => simp [chainFrom]
  | succ steps ih =>
    unfold chainFrom
    split
    · simp
    · split
      · simp
      · simpa using ih _

end HashTable
end ElfLens
