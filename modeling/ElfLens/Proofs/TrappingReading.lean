import ElfLens.Proofs.HeaderBytes
import ElfLens.Proofs.TrappingHash

set_option autoImplicit false

namespace ElfLens

namespace Trapping

def length (space : AddressSpace) : Trapping UInt64 := sub space.high space.base

def isResident (space : AddressSpace) (offset length : UInt64) : Trapping Bool := do
  let total ← Trapping.length space
  return (Bytes.checkRange offset length total).isOk

def readImage (space : AddressSpace) (offset length : UInt64) :
    Trapping (Except Fault Bytes) := do
  if ← isResident space offset length then
    return space.memory.read (← add space.base offset) length
  return .error (.truncatedTable offset.toNat length.toNat)

def size (table : Table) : Trapping UInt64 :=
  div table.bytes.size.toUInt64 table.stride.toUInt64

/-- The record at an index; nothing is left to look at once the index is below the number. -/
def record? (table : Table) (index : UInt64) : Trapping (Option Bytes) := do
  if (← size table) ≤ index then return none
  let start ← mul index table.stride.toUInt64
  let stop ← add start table.stride.toUInt64
  return some (← slice table.bytes start stop)

def tableSize (stride count : UInt16) : Trapping UInt64 := mul stride.toUInt64 count.toUInt64

def containsVaddr (segment : Segment) (address : UInt64) : Trapping Bool := do
  if segment.vaddr ≤ address then return (← sub address segment.vaddr) < segment.memSize
  return false

def readChunk (chunk : Chunk) (address length : UInt64) : Trapping (Except Fault Bytes) :=
  match Word.minus? address chunk.base with
  | none => return .error (.memoryRead address.toNat length.toNat)
  | some start => range chunk.bytes start length (.memoryRead address.toNat length.toNat)

/-- A read of a file; an empty one is not mapped at all. -/
def readFile (content : Bytes) (address length : UInt64) : Trapping (Except Fault Bytes) :=
  if content.isEmpty then return .error (.memoryRead address.toNat length.toNat)
  else range content address length (.memoryRead address.toNat length.toNat)

/-- The identification that the data starts with, byte by byte. -/
def ident (data : Bytes) : Trapping (Except Fault Ident) := do
  if 4 ≤ data.size ∧ ¬ Ident.isSigned data then return .error .notElf
  if data.size < Ident.byteSize then
    return .error (.truncatedHeader Ident.byteSize data.size)
  let classCode ← byteAt data 4
  let orderCode ← byteAt data 5
  let version ← byteAt data 6
  let abi ← byteAt data 7
  let abiVersion ← byteAt data 8
  return do
    let wordClass ← Class.ofCode? classCode
    let order ← Endian.ofCode? orderCode
    return { wordClass, order, version, abi, abiVersion }

section Space

variable (space : AddressSpace) (offset length : UInt64)

theorem length_eq : Trapping.length space = .ok space.length := sub_eq space.base_le_high

theorem isResident_eq :
    isResident space offset length = .ok (space.isResident offset length) := by
  rw [isResident, length_eq]
  change Except.ok _ = Except.ok _
  rw [Bytes.checkRange, AddressSpace.isResident]
  by_cases inside : offset.toNat + length.toNat ≤ space.length.toNat
  · rw [if_pos inside, decide_eq_true inside]
    rfl
  · rw [if_neg inside, decide_eq_false inside]
    rfl

/-- The last address of the image is a word, so the first one of a range inside it is one too. -/
theorem readImage_eq : readImage space offset length = .ok (space.readImage offset length) := by
  rw [readImage, isResident_eq, AddressSpace.readImage]
  by_cases resident : space.isResident offset length
  · have bound := AddressSpace.base_add_of_isResident resident
    have top := space.high.toNat_lt
    have fits : space.base.toNat + offset.toNat < UInt64.size := by
      rw [Word.size_eq]
      omega
    rw [if_pos resident, add_eq (Word.toNat_add_of_fits fits)]
    simp only [resident]
    rfl
  · simp only [resident]
    rfl

theorem toNat_high_mapped (memory : Memory) (base high : UInt64) (limits : Limits) :
    (AddressSpace.mapped memory base high limits).high.toNat = max base.toNat high.toNat := by
  unfold AddressSpace.mapped AddressSpace.high
  by_cases ordered : base ≤ high
  · simp only [ordered, ↓reduceDIte]
    exact (Nat.max_eq_right (UInt64.le_iff_toNat_le.mp ordered)).symm
  · simp only [ordered, ↓reduceDIte]
    rw [UInt64.le_iff_toNat_le] at ordered
    omega

end Space

/-- The bytes and the stride of the table are ones that a machine has room for. -/
structure IsHeld (table : Table) : Prop where
  bytes : table.bytes.size < UInt64.size
  stride : table.stride < UInt64.size

section Records

variable {table : Table}

theorem IsHeld.toNat_stride (held : IsHeld table) : table.stride.toUInt64.toNat = table.stride :=
  UInt64.toNat_ofNat_of_lt' held.stride

theorem size_eq (held : IsHeld table) :
    size table = .ok table.size.toUInt64 ∧ table.size.toUInt64.toNat = table.size := by
  have few : table.size ≤ table.bytes.size := Nat.div_le_self _ _
  have word : table.size.toUInt64.toNat = table.size :=
    UInt64.toNat_ofNat_of_lt' (Nat.lt_of_le_of_lt few held.bytes)
  have stride := held.toNat_stride
  refine ⟨div_eq ?_ ?_, word⟩
  · intro zero
    have positive := table.stride_pos
    rw [← stride, zero] at positive
    exact Nat.lt_irrefl _ positive
  · have total : table.bytes.size.toUInt64.toNat = table.bytes.size :=
      UInt64.toNat_ofNat_of_lt' held.bytes
    rw [word, stride, total]
    rfl

/-- Below the number of records, a record ends where the bytes do, or earlier. -/
theorem record?_eq (held : IsHeld table) (index : UInt64) :
    record? table index = .ok (table.record? index.toNat) := by
  obtain ⟨counted, word⟩ := size_eq held
  have stride := held.toNat_stride
  unfold record?
  rw [counted]
  change (if table.size.toUInt64 ≤ index then _ else _) = _
  by_cases outside : table.size.toUInt64 ≤ index
  · have past : ¬ index.toNat < table.size := by
      rw [UInt64.le_iff_toNat_le, word] at outside
      exact Nat.not_lt.mpr outside
    rw [← Table.record?_isSome_iff, Option.not_isSome_iff_eq_none] at past
    rw [if_pos outside, past]
    rfl
  · have inside : index.toNat < table.size := by
      rwa [UInt64.le_iff_toNat_le, word, Nat.not_le] at outside
    have whole := Table.lt_size_iff.mp inside
    have bound := held.bytes
    have start : (index.toNat * table.stride).toUInt64.toNat = index.toNat * table.stride :=
      UInt64.toNat_ofNat_of_lt' (by omega)
    have stop : (index.toNat * table.stride + table.stride).toUInt64.toNat =
        index.toNat * table.stride + table.stride := UInt64.toNat_ofNat_of_lt' (by omega)
    have product : mul index table.stride.toUInt64 =
        .ok (index.toNat * table.stride).toUInt64 := mul_eq (by rw [start, stride])
    have sum : add (index.toNat * table.stride).toUInt64 table.stride.toUInt64 =
        .ok (index.toNat * table.stride + table.stride).toUInt64 :=
      add_eq (by rw [stop, start, stride])
    have cut : slice table.bytes (index.toNat * table.stride).toUInt64
        (index.toNat * table.stride + table.stride).toUInt64 =
        .ok (table.bytes.extract (index.toNat * table.stride)
          (index.toNat * table.stride + table.stride)) := by
      rw [slice_eq (by rw [start, stop]; exact Nat.le_add_right _ _) (by rwa [stop]), start, stop]
    rw [if_neg outside, product]
    change (add _ _ >>= _) = _
    rw [sum]
    change (slice _ _ _ >>= _) = _
    rw [cut, Table.record?, Bytes.slice?, if_pos whole]
    rfl

end Records

theorem tableSize_eq (stride count : UInt16) :
    tableSize stride count = .ok (stride.toUInt64 * count.toUInt64) :=
  mul_eq (FileHeader.toNat_mul_toUInt64 stride count)

theorem containsVaddr_eq (segment : Segment) (address : UInt64) :
    containsVaddr segment address = .ok (segment.containsVaddr address) := by
  unfold containsVaddr Segment.containsVaddr
  by_cases above : segment.vaddr ≤ address
  · rw [if_pos above, sub_eq above]
    simp only [above, true_and]
    rfl
  · rw [if_neg above]
    simp only [above, false_and, decide_false]
    rfl

theorem readChunk_eq {bytes : Bytes} (held : bytes.size < UInt64.size)
    (base address length : UInt64) :
    readChunk ⟨base, bytes⟩ address length =
      .ok ((Memory.ofBytes base bytes).read address length) := by
  unfold readChunk
  cases distance : Word.minus? address base with
  | none =>
      have below : Chunk.read? ⟨base, bytes⟩ address length = none := by
        rw [Chunk.read?, distance]
        rfl
      simp only [Memory.ofBytes, Memory.ofChunks, List.findSome?_cons, List.findSome?_nil, below]
      rfl
  | some start =>
      have place := Word.minus?_eq_some_iff.mp distance
      rw [Memory.read_ofBytes place]
      exact range_eq held start length _

theorem readFile_eq {content : Bytes} (held : content.size < UInt64.size)
    (address length : UInt64) :
    readFile content address length = .ok ((Memory.ofFile content).read address length) := by
  unfold readFile
  by_cases blank : content.isEmpty
  · rw [if_pos blank, Memory.ofFile, if_pos blank]
    rfl
  · have filled : content ≠ #[] := by rwa [ne_eq, ← Array.isEmpty_iff]
    rw [if_neg blank, Memory.read_ofFile filled]
    exact range_eq held address length _

theorem ident_eq (data : Bytes) : ident data = .ok (Ident.decode data) := by
  unfold ident
  by_cases foreign : 4 ≤ data.size ∧ ¬ Ident.isSigned data
  · rw [if_pos foreign, Ident.decode, if_pos foreign]
    rfl
  · rw [if_neg foreign]
    by_cases short : data.size < Ident.byteSize
    · rw [Ident.decode, if_neg foreign, if_pos short]
      simp only [if_pos short]
      rfl
    · have long : 16 ≤ data.size := Nat.le_of_not_lt short
      have signed : data.extract 0 4 = Ident.signature := by
        apply Ident.isSigned_iff.mp
        apply Classical.byContradiction
        intro unsigned
        exact foreign ⟨by omega, unsigned⟩
      obtain ⟨c, o, version, abi, abiVersion, blank, rest, seven, parts, fourth, fifth⟩ :=
        Ident.exists_codes signed long
      have sixth : data[6]? = some version := by
        rw [← Array.getElem?_toList, parts]
        rfl
      have seventh : data[7]? = some abi := by
        rw [← Array.getElem?_toList, parts]
        rfl
      have eighth : data[8]? = some abiVersion := by
        rw [← Array.getElem?_toList, parts]
        rfl
      rw [if_neg short, byteAt_eq fourth, byteAt_eq fifth, byteAt_eq sixth, byteAt_eq seventh,
        byteAt_eq eighth, Ident.decode_of_codes seven parts]
      rfl

/-- Nothing that an image is read with is stopped: no difference goes below zero, no sum or product
runs over, nothing is divided by zero and no byte is missing, whatever the memory, the headers and
the tables hold and wherever they are read. What comes of it is what the exact definitions say. -/
theorem reading_succeeds :
    -- the addresses of an image, also of one that would end before it starts
    (∀ memory base high limits,
      (AddressSpace.mapped memory base high limits).base = base ∧
      (AddressSpace.mapped memory base high limits).high.toNat = max base.toNat high.toNat) ∧
    (∀ space offset length,
      Trapping.length space = .ok space.length ∧
      isResident space offset length = .ok (space.isResident offset length) ∧
      readImage space offset length = .ok (space.readImage offset length) ∧
      (space.isResident offset length →
        space.base.toNat + offset.toNat + length.toNat ≤ space.high.toNat)) ∧
    -- the tables of records, and what can be made into one
    (∀ table, IsHeld table → size table = .ok table.size.toUInt64 ∧ ∀ index : UInt64,
      record? table index = .ok (table.record? index.toNat) ∧
      (index.toNat < table.size →
        index.toNat * table.stride + table.stride ≤ table.bytes.size)) ∧
    (∀ bytes layout, Table.make? bytes 0 layout = .error (.malformedHeader .zeroStride)) ∧
    (∀ (relocs : RelocationTable) (statics : StaticSymbols),
      0 < relocs.table.stride ∧ 0 < statics.table.stride) ∧
    -- the sizes that the file header calls for, and the addresses of a segment
    (∀ header : FileHeader,
      tableSize header.segmentStride header.segmentCount = .ok header.segmentTableSize ∧
      header.segmentTableSize.toNat = header.segmentStride.toNat * header.segmentCount.toNat ∧
      tableSize header.sectionStride header.sectionCount = .ok header.sectionTableSize ∧
      header.sectionTableSize.toNat = header.sectionStride.toNat * header.sectionCount.toNat) ∧
    (∀ segment address, containsVaddr segment address = .ok (segment.containsVaddr address)) ∧
    -- the hash table, read in place
    (∀ buckets chains, ∃ size, hashTableSize buckets chains = .ok size ∧
      size.toNat = HashTable.byteSize buckets chains) ∧
    (∀ (order : Endian) (bytes : Bytes), bytes.size < UInt64.size →
      (∀ fault, HashTable.ofBytes? order bytes = .error fault →
        hashTable order bytes = .ok (.error fault)) ∧
      ∀ table, HashTable.ofBytes? order bytes = .ok table →
        ∃ raw, hashTable order bytes = .ok (.ok raw) ∧
          (∀ index, bucket raw index = .ok table.buckets[index.toNat]?) ∧
          (∀ index, chain raw index = .ok table.chains[index.toNat]?) ∧
          ∀ name carries, lookup raw name carries = .ok (table.lookup name carries)) ∧
    -- ranges, strings and numbers in a byte string
    (∀ bytes : Bytes, bytes.size < UInt64.size →
      (∀ base address length, readChunk ⟨base, bytes⟩ address length =
        .ok ((Memory.ofBytes base bytes).read address length)) ∧
      (∀ address length, readFile bytes address length =
        .ok ((Memory.ofFile bytes).read address length)) ∧
      (∀ offset, cstring bytes offset = .ok (bytes.cstring offset.toNat)) ∧
      ∀ (order : Endian) (width offset : UInt64), 0 < width.toNat →
        number order width bytes offset =
          .ok ((FieldReader.unsigned order width.toNat).decodeAt bytes offset.toNat)) ∧
    ∀ data, ident data = .ok (Ident.decode data) := by
  refine ⟨?_, ?_, ?_, fun _ _ => rfl, ?_, ?_, containsVaddr_eq, hashTableSize_eq, ?_, ?_, ident_eq⟩
  · intro memory base high limits
    exact ⟨AddressSpace.base_mapped .., toNat_high_mapped ..⟩
  · intro space offset length
    exact ⟨length_eq space, isResident_eq .., readImage_eq .., AddressSpace.base_add_of_isResident⟩
  · intro table held
    exact ⟨(size_eq held).1, fun index => ⟨record?_eq held index, Table.lt_size_iff.mp⟩⟩
  · intro relocs statics
    exact ⟨relocs.table.stride_pos, statics.table.stride_pos⟩
  · intro header
    exact ⟨tableSize_eq .., header.toNat_segmentTableSize, tableSize_eq ..,
      header.toNat_sectionTableSize⟩
  · intro order bytes held
    obtain ⟨refused, read⟩ := hashTable_eq held
    refine ⟨refused, ?_⟩
    intro table decoded
    obtain ⟨raw, built, shows⟩ := read table decoded
    exact ⟨raw, built, bucket_eq shows, chain_eq shows, lookup_eq shows⟩
  · intro bytes held
    exact ⟨readChunk_eq held, readFile_eq held, cstring_eq held,
      fun order _ offset positive => number_eq held order positive offset⟩

/-- Fifteen bytes that end at the last address there is. -/
def topSpace : AddressSpace :=
  .mapped (.ofBytes 0xfffffffffffffff0 #[0, 1, 2, 3, 4, 5, 6, 7, 8, 9, 10, 11, 12, 13, 14])
    0xfffffffffffffff0 0xffffffffffffffff {}

/-- Two records of two bytes and one byte more. -/
def oddTable : Table := ⟨#[1, 2, 3, 4, 5], 2, ⟨.elf64, .little⟩, by decide⟩

theorem reading_succeeds_at_top :
    topSpace.isResident 12 3 ∧ readImage topSpace 12 3 = .ok (.ok #[12, 13, 14]) ∧
      IsHeld oddTable ∧ size oddTable = .ok 2 ∧ record? oddTable 1 = .ok (some #[3, 4]) ∧
      cstring oddTable.bytes 6 = .ok (.error (.badString 6)) := by
  have held : IsHeld oddTable := ⟨by decide, by decide⟩
  have resident : topSpace.isResident 12 3 := by decide
  have spaces := reading_succeeds.2.1 topSpace 12 3
  have records := reading_succeeds.2.2.1 oddTable held
  have strings := (reading_succeeds.2.2.2.2.2.2.2.2.2.1 oddTable.bytes held.bytes).2.2.1 6
  refine ⟨resident, spaces.2.2.1.trans ?_, held, records.1, ?_, strings⟩
  · rw [AddressSpace.readImage, if_pos resident]
    rfl
  · exact (records.2 1).1

end Trapping
end ElfLens
