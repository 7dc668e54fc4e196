import ElfLens.Proofs.ArrayEnd
import ElfLens.Proofs.ReadInPlace
import ElfLens.Proofs.SymbolEnumeration

set_option autoImplicit false

namespace ElfLens

/-- A table has all the bytes that are declared and no more than the limit allows, and there is none
if more are declared. -/
structure IsWithin (limit declared : Nat) (table? : Option Bytes) : Prop where
  whole : ∀ bytes ∈ table?, bytes.size = declared ∧ declared ≤ limit
  absent : limit < declared → table? = none

theorem IsWithin.of_whole {limit declared : Nat} {table? : Option Bytes}
    (whole : ∀ bytes ∈ table?, bytes.size = declared ∧ declared ≤ limit) :
    IsWithin limit declared table? where
  whole := whole
  absent excess := by
    cases present : table? with
    | none => rfl
    | some bytes => exact absurd (whole bytes present).2 (Nat.not_le.mpr excess)

theorem IsWithin.none (limit declared : Nat) : IsWithin limit declared none :=
  .of_whole fun _ present => nomatch present

/-- Reads agree on the bytes that they share. -/
def Memory.IsConsistent (memory : Memory) : Prop :=
  ∀ address length address' length' part part', memory.read address length = .ok part →
    memory.read address' length' = .ok part' → ∀ i < length.toNat, ∀ j < length'.toNat,
      address.toNat + i = address'.toNat + j → part[i]? = part'[j]?

theorem Memory.isConsistent_ofBytes (base : UInt64) (bytes : Bytes) :
    (ofBytes base bytes).IsConsistent := by
  intro address length address' length' part part' read read' i inside j inside' same
  obtain ⟨start, place, sliced⟩ := exists_slice_of_read_ofBytes read
  obtain ⟨start', place', sliced'⟩ := exists_slice_of_read_ofBytes read'
  have index : start + i = start' + j := by omega
  rw [Bytes.getElem?_of_slice? sliced inside, Bytes.getElem?_of_slice? sliced' inside', index]

theorem Memory.isConsistent_ofFile (content : Bytes) : (ofFile content).IsConsistent := by
  unfold ofFile
  split
  · intro _ _ _ _ _ _ read
    cases read
  · exact isConsistent_ofBytes 0 content

namespace AddressSpace

theorem isWithin_readTable (space : AddressSpace) (address length : UInt64) :
    IsWithin space.limits.tableBytes.toNat length.toNat
      (space.readTable address length).toOption := by
  apply IsWithin.of_whole
  intro bytes present
  have read := eq_ok_of_toOption present
  have allowed := (exists_position_of_readTable read).1
  exact ⟨size_of_readTable read, UInt64.le_iff_toNat_le.mp allowed⟩

theorem isWithin_tableAt? (space : AddressSpace) (location : TableLocation) :
    IsWithin space.limits.tableBytes.toNat location.byteSize.toNat (space.tableAt? location) := by
  unfold tableAt?
  split
  · exact space.isWithin_readTable _ _
  · exact .none _ _

/-- A file may have the ranges of two lengths from one address at two places, where segments
overlap; a mapped image has them at one. -/
theorem position?_congr {space : AddressSpace} {address length length' : UInt64}
    (place : space.isMapped ∨
      space.fileOffset? address length = space.fileOffset? address length') :
    space.position? address length = space.position? address length' := by
  obtain ⟨memory, placement, limits⟩ := space
  cases placement with
  | mapped base high ordered => rfl
  | file size loads => exact place.resolve_left Bool.false_ne_true

/-- Two tables that are read at one place start with the same bytes. -/
theorem getElem?_of_isConsistent {space : AddressSpace} (consistent : space.memory.IsConsistent)
    {address length length' : UInt64} {part part' : Bytes}
    (place : space.position? address length = space.position? address length')
    (read : space.readTable address length = .ok part)
    (read' : space.readTable address length' = .ok part') {index : Nat}
    (inside : index < length.toNat) (inside' : index < length'.toNat) :
    part'[index]? = part[index]? := by
  obtain ⟨-, position, found, given⟩ := exists_position_of_readTable read
  obtain ⟨-, position', found', given'⟩ := exists_position_of_readTable read'
  obtain rfl : position = position' := by
    rw [place, found'] at found
    exact (Option.some.inj found).symm
  exact consistent _ _ _ _ _ _ given' given _ inside' _ inside rfl

end AddressSpace

theorem DynamicRelocations.isWithin_readTable? (space : AddressSpace) (layout : Layout)
    (kind : RelocationKind) (location : TableLocation) :
    IsWithin space.limits.tableBytes.toNat location.byteSize.toNat
      ((readTable? space layout kind location).map (·.table.bytes)) := by
  apply IsWithin.of_whole
  intro bytes present
  obtain ⟨relocs, read, rfl⟩ := Option.map_eq_some_iff.mp present
  obtain ⟨bytes, given, read⟩ := Option.bind_eq_some_iff.mp read
  obtain ⟨table, made, same⟩ := Option.bind_eq_some_iff.mp read
  obtain rfl := Option.some.inj same
  rw [(Table.of_make? (eq_ok_of_toOption made)).1]
  exact (space.isWithin_tableAt? location).whole bytes given

theorem HashTable.byteSize_le_of_ofBytes? {order : Endian} {bytes : Bytes} {table : HashTable}
    {buckets chains : UInt32} (read : ofBytes? order bytes = .ok table)
    (counted : (counts order).decode bytes = .ok (buckets, chains)) :
    byteSize buckets chains ≤ bytes.size := by
  rw [ofBytes?, counted] at read
  apply Nat.le_of_not_lt
  intro short
  simp only [bind, Except.bind, if_pos short] at read
  cases read

theorem HashTable.takes_counts (order : Endian) : (counts order).Takes headerSize :=
  ((FieldReader.exactly_u32 order).bind fun _ => (FieldReader.exactly_u32 order).map _).takes

namespace DynamicSymbols

/-- The symbols are sized by the exact product of their count and their stride, so that one that no
word has room for leaves them absent. -/
theorem isWithin_symbols? (space : AddressSpace) (layout : Layout) (entries : List DynamicEntry) :
    IsWithin space.limits.tableBytes.toNat
      ((locate space layout entries).count *
        (locate space layout entries).symbolLocation.stride.toNat)
      ((locate space layout entries).symbols?.map (·.bytes)) := by
  apply IsWithin.of_whole
  intro bytes present
  obtain ⟨table, resolved, rfl⟩ := Option.map_eq_some_iff.mp present
  have size := (isSized_locate resolved).byteSize
  obtain ⟨bytes, given, made⟩ := Option.bind_eq_some_iff.mp resolved
  have same := (Table.of_make? (eq_ok_of_toOption made)).1
  obtain ⟨told, allowed⟩ := (space.isWithin_tableAt? _).whole bytes given
  refine ⟨size, ?_⟩
  rw [← size, same, told]
  exact allowed

/-- What is kept of the hash table at an address: its counts say how many bytes are read of it, and
they are read. What these bytes have for counts themselves calls for no more of them. They are the
counts that were read first if reads agree, unless a file has the counts by themselves at another
place than the whole table. -/
structure HashIsWithin (space : AddressSpace) (layout : Layout) (address : UInt64)
    (buckets chains : UInt32) (hash : HashTable) : Prop where
  counted : hashCounts? space layout address = some (buckets, chains)
  read : ∃ bytes, space.readTable address (HashTable.byteSize buckets chains).toUInt64 = .ok bytes ∧
    bytes.size = HashTable.byteSize buckets chains ∧ bytes.size ≤ space.limits.tableBytes.toNat ∧
    HashTable.ofBytes? layout.order bytes = .ok hash
  kept : (2 + hash.buckets.size + hash.chains.size) * 4 ≤ HashTable.byteSize buckets chains
  consistent : space.memory.IsConsistent →
    (space.isMapped ∨ space.fileOffset? address HashTable.headerSize.toUInt64 =
      space.fileOffset? address (HashTable.byteSize buckets chains).toUInt64) →
    hash.buckets.size = buckets.toNat ∧ hash.chains.size = chains.toNat

/-- The counts come from a read of the front alone. A memory that answers the same each time gives
the longer read at the same place the same front, hence the same counts. -/
theorem counts_eq_of_isConsistent {space : AddressSpace} {layout : Layout} {address : UInt64}
    {buckets chains buckets' chains' : UInt32} {bytes : Bytes}
    (consistent : space.memory.IsConsistent)
    (place : space.isMapped ∨ space.fileOffset? address HashTable.headerSize.toUInt64 =
      space.fileOffset? address (HashTable.byteSize buckets chains).toUInt64)
    (counted : hashCounts? space layout address = some (buckets, chains))
    (given : space.readTable address (HashTable.byteSize buckets chains).toUInt64 = .ok bytes)
    (counted' : (HashTable.counts layout.order).decode bytes = .ok (buckets', chains')) :
    buckets' = buckets ∧ chains' = chains := by
  obtain ⟨head, front, decoded⟩ := Option.bind_eq_some_iff.mp counted
  have front := eq_ok_of_toOption front
  have long : HashTable.headerSize ≤ HashTable.byteSize buckets chains := by
    rw [HashTable.headerSize, HashTable.byteSize]
    omega
  have same : bytes.toList.take HashTable.headerSize = head.toList.take HashTable.headerSize := by
    apply Bytes.take_toList_congr
    intro index inside
    apply AddressSpace.getElem?_of_isConsistent consistent (AddressSpace.position?_congr place)
      front given inside
    rw [UInt64.toNat_ofNat_of_lt' (Trapping.byteSize_lt buckets chains)]
    exact Nat.lt_of_lt_of_le inside long
  have whole : HashTable.headerSize ≤ head.size :=
    Nat.le_of_eq (AddressSpace.size_of_readTable front).symm
  rw [FieldReader.decode_congr (HashTable.takes_counts layout.order) whole same,
    eq_ok_of_toOption decoded, Except.ok.injEq, Prod.mk.injEq] at counted'
  exact ⟨counted'.1.symm, counted'.2.symm⟩

theorem hashIsWithin_of_readHash? {space : AddressSpace} {layout : Layout} {address : UInt64}
    {hash : HashTable} (read : readHash? space layout address = some hash) :
    ∃ buckets chains, HashIsWithin space layout address buckets chains hash := by
  have present : address ≠ 0 := by
    rintro rfl
    cases read
  rw [readHash?_eq space layout present] at read
  obtain ⟨⟨buckets, chains⟩, counted, read⟩ := Option.bind_eq_some_iff.mp read
  obtain ⟨bytes, given, parsed⟩ := Option.bind_eq_some_iff.mp read
  have parsed := eq_ok_of_toOption parsed
  obtain ⟨size, allowed⟩ := (space.isWithin_readTable _ _).whole bytes given
  rw [UInt64.toNat_ofNat_of_lt' (Trapping.byteSize_lt buckets chains)] at size allowed
  obtain ⟨buckets', chains', counted', holds⟩ := RawHashTable.exists_isTable parsed
  refine ⟨buckets, chains, counted, ?_, ?_, ?_⟩
  · exact ⟨bytes, eq_ok_of_toOption given, size, size ▸ allowed, parsed⟩
  · rw [holds.bucketCount, holds.chainCount, ← size]
    exact HashTable.byteSize_le_of_ofBytes? parsed counted'
  · intro consistent place
    rw [holds.bucketCount, holds.chainCount]
    obtain ⟨rfl, rfl⟩ := counts_eq_of_isConsistent consistent place counted
      (eq_ok_of_toOption given) counted'
    exact ⟨rfl, rfl⟩

end DynamicSymbols

namespace Linkage

/-- Every table that the dynamic array locates, and the array itself, has the size that is declared
for it and keeps to the limit. -/
structure StaysWithin (linkage : Linkage) (space : AddressSpace) : Prop where
  array : ∃ bytes, space.readTable linkage.address linkage.byteSize = .ok bytes ∧
    linkage.entries = DynamicEntry.decodeArray linkage.layout bytes ∧
    bytes.size = linkage.byteSize.toNat ∧ linkage.byteSize ≤ space.limits.tableBytes
  strings : IsWithin space.limits.tableBytes.toNat
    (DynamicEntry.sizeOf DynamicTag.stringsSize linkage.entries).toNat linkage.symbols.strings?
  stride : linkage.symbols.symbolLocation.stride = DynamicSymbols.strideOr
    (DynamicEntry.sizeOf DynamicTag.symbolStride linkage.entries) linkage.layout.symbolSize
  symbols : IsWithin space.limits.tableBytes.toNat
    (linkage.symbols.count * linkage.symbols.symbolLocation.stride.toNat)
    (linkage.symbols.symbols?.map (·.bytes))
  overflow :
    UInt64.size ≤ linkage.symbols.count * linkage.symbols.symbolLocation.stride.toNat →
      linkage.symbols.symbols? = none
  hash : ∀ hash ∈ linkage.symbols.hash?, ∃ buckets chains, DynamicSymbols.HashIsWithin space
    linkage.layout linkage.symbols.hashAddress buckets chains hash
  unhashed : ∀ buckets chains, DynamicSymbols.hashCounts? space linkage.layout
      linkage.symbols.hashAddress = some (buckets, chains) →
    space.limits.tableBytes.toNat < HashTable.byteSize buckets chains →
      linkage.symbols.hash? = none
  rela : IsWithin space.limits.tableBytes.toNat
    (DynamicEntry.sizeOf DynamicTag.relaSize linkage.entries).toNat
    (linkage.relocs.rela?.map (·.table.bytes))
  rel : IsWithin space.limits.tableBytes.toNat
    (DynamicEntry.sizeOf DynamicTag.relSize linkage.entries).toNat
    (linkage.relocs.rel?.map (·.table.bytes))
  plt : IsWithin space.limits.tableBytes.toNat
    (DynamicEntry.sizeOf DynamicTag.pltRelocationSize linkage.entries).toNat
    (linkage.relocs.plt?.map (·.table.bytes))

theorem staysWithin_ofEntries {space : AddressSpace} {layout : Layout} {address byteSize : UInt64}
    {bytes : Bytes} (read : space.readTable address byteSize = .ok bytes) :
    (ofEntries space layout address byteSize
      (DynamicEntry.decodeArray layout bytes)).StaysWithin space := by
  generalize given : DynamicEntry.decodeArray layout bytes = entries
  have symbols := DynamicSymbols.isWithin_symbols? space layout entries
  let relocs := DynamicRelocations.locate space layout entries
  constructor
  case array =>
    exact ⟨bytes, read, given.symm, AddressSpace.size_of_readTable read,
      (AddressSpace.exists_position_of_readTable read).1⟩
  case strings =>
    exact space.isWithin_tableAt? (DynamicSymbols.locate space layout entries).stringLocation
  case stride => rfl
  case symbols => exact symbols
  case overflow =>
    intro large
    have short := Nat.lt_of_lt_of_le space.limits.tableBytes.toNat_lt large
    exact Option.map_eq_none_iff.mp (symbols.absent short)
  case hash => exact fun hash present => DynamicSymbols.hashIsWithin_of_readHash? present
  case unhashed =>
    intro buckets chains counted excess
    apply Option.eq_none_iff_forall_not_mem.mpr
    intro hash present
    obtain ⟨buckets', chains', within⟩ := DynamicSymbols.hashIsWithin_of_readHash? present
    obtain ⟨rfl, rfl⟩ := Prod.mk.inj (Option.some.inj (counted.symm.trans within.counted))
    obtain ⟨whole, -, size, allowed, -⟩ := within.read
    omega
  case rela =>
    exact DynamicRelocations.isWithin_readTable? space layout .rela relocs.relaLocation
  case rel => exact DynamicRelocations.isWithin_readTable? space layout .rel relocs.relLocation
  case plt =>
    change IsWithin _ relocs.pltLocation.byteSize.toNat
      ((relocs.pltKind?.bind fun kind => DynamicRelocations.readTable? space layout kind
        relocs.pltLocation).map _)
    cases relocs.pltKind? with
    | none => exact .none _ _
    | some kind =>
        exact DynamicRelocations.isWithin_readTable? space layout kind relocs.pltLocation

theorem staysWithin_of_read {space : AddressSpace} {layout : Layout} {address byteSize : UInt64}
    {linkage : Linkage} (opened : read space layout address byteSize = .ok linkage) :
    linkage.StaysWithin space := by
  unfold read at opened
  cases array : space.readTable address byteSize with
  | error fault =>
      rw [array] at opened
      cases opened
  | ok bytes =>
      rw [array] at opened
      obtain rfl := Except.ok.inj opened
      exact staysWithin_ofEntries array

end Linkage

/-- A copy comes from reading the file for good, or it was there before. -/
theorem Section.of_settle_fetched {sec : Section} {outcome : Except Fault Bytes} {bytes : Bytes}
    (copied : (sec.settle outcome).residency = .fetched bytes) :
    sec.residency = .fetched bytes ∨ sec.residency = .fileBacked ∧ outcome = .ok bytes := by
  cases outcome with
  | error fault => cases copied
  | ok part =>
      by_cases backed : sec.residency = .fileBacked
      · rw [settle, if_pos backed] at copied
        cases copied
        exact .inr ⟨backed, rfl⟩
      · rw [settle_of_ok part backed] at copied
        exact .inl copied

namespace ImageSource

variable {source : ImageSource} {header : FileHeader}

theorem residencyOf_ne_fetched (source : ImageSource) (header : SectionHeader) (bytes : Bytes) :
    source.residencyOf header ≠ .fetched bytes := by
  unfold residencyOf
  split
  · exact Residency.noConfusion
  · split
    · exact Residency.noConfusion
    · split <;> exact Residency.noConfusion

theorem isWithin_fetch (source : ImageSource) (offset length : UInt64) :
    IsWithin source.space.limits.fetchBytes.toNat length.toNat
      (source.fetch offset length).toOption := by
  apply IsWithin.of_whole
  intro bytes present
  have read := eq_ok_of_toOption present
  unfold fetch at read
  split at read
  · cases read
  · obtain ⟨content, -, sliced, allowed, -⟩ := Files.fetch_eq_ok_iff.mp read
    exact ⟨Bytes.size_of_slice? sliced, UInt64.le_iff_toNat_le.mp allowed⟩

theorem isWithin_readRange {offset length : UInt64}
    (outside : ¬ source.space.isResident offset length) :
    IsWithin source.space.limits.fetchBytes.toNat length.toNat
      (source.readRange offset length).toOption := by
  rw [readRange, if_neg outside]
  exact source.isWithin_fetch offset length

theorem isWithin_sectionNames? {headers : List SectionHeader} {names : SectionHeader}
    (stands : headers[header.nameSection.toNat]? = some names)
    (outside : ¬ source.space.isResident names.offset names.byteSize) :
    IsWithin source.space.limits.fetchBytes.toNat names.byteSize.toNat
      (source.sectionNames? header headers) := by
  rw [sectionNames?, stands]
  dsimp only
  split
  · exact .none _ _
  · exact isWithin_readRange outside

/-- Without the table that holds them, there are no section headers. -/
theorem sections_eq_nil
    (unread : (source.readRange header.sectionOffset header.sectionTableSize).toOption = none) :
    (source.staticSymbols header.layout (source.sections header)).2 = [] := by
  have headers : source.sectionHeaders header = [] := by
    apply Classical.byContradiction
    intro present
    obtain ⟨table, read, -⟩ := exists_readRange_of_sectionHeaders present
    rw [read] at unread
    cases unread
  rwa [← source.toSectionHeader_staticSymbols header, List.map_eq_nil_iff] at headers

/-- The header of a section is the one at its place, whatever was read of the section since. -/
theorem getElem?_sectionHeaders_of_settled {index : Nat} {sec : Section}
    (stands : (source.staticSymbols header.layout (source.sections header)).2[index]? = some sec) :
    (source.sectionHeaders header)[index]? = some sec.toSectionHeader := by
  rw [← source.toSectionHeader_staticSymbols header, List.getElem?_map, stands]
  rfl

/-- A copy is kept of nothing but what was fetched, and of all of it. -/
theorem isWithin_of_fetched {index : Nat} {sec : Section} {bytes : Bytes}
    (stands : (source.staticSymbols header.layout (source.sections header)).2[index]? = some sec)
    (copied : sec.residency = .fetched bytes) :
    bytes.size = sec.byteSize.toNat ∧ sec.byteSize ≤ source.space.limits.fetchBytes := by
  have settles := source.settles_staticSymbols header.layout (source.sections header)
  obtain ⟨before, fresh, settled⟩ := settles.exists_before stands
  have unread := (index_of_sections fresh).2
  have uncopied : before.residency ≠ .fetched bytes := by
    rw [unread]
    exact source.residencyOf_ne_fetched _ bytes
  rcases settled with rfl | ⟨-, rfl⟩
  · exact absurd copied uncopied
  · have same : (before.settle (source.sectionBytes before)).byteSize = before.byteSize :=
      congrArg (·.1.byteSize) (Section.told_settle before _)
    rcases Section.of_settle_fetched copied with earlier | ⟨backed, read⟩
    · exact absurd earlier uncopied
    · have fetched : source.fetch before.offset before.byteSize = .ok bytes := by
        rwa [sectionBytes, backed] at read
      obtain ⟨size, allowed⟩ := (source.isWithin_fetch before.offset before.byteSize).whole bytes
        (by rw [fetched]; rfl)
      rw [same]
      exact ⟨size, UInt64.le_iff_toNat_le.mpr allowed⟩

end ImageSource

namespace Image

/-- Everything that is kept of an image, and everything that is fetched for it from its file, has
the size that is declared for it and keeps to the limits. -/
structure StaysWithin (image : Image) (files : Files) (limits : Limits) : Prop where
  bound : image.space.limits = limits
  linkage : ∀ linkage ∈ image.linkage?, linkage.StaysWithin image.space ∧
    ∃ segment, image.findSegment? .dynamic = some segment ∧ linkage.byteSize =
      if image.space.isMapped then segment.memSize else segment.fileSize
  unlinked : ∀ segment, image.findSegment? .dynamic = some segment →
    (limits.tableBytes < if image.space.isMapped then segment.memSize else segment.fileSize) →
      image.linkage? = none
  headers : ¬ image.space.isResident image.header.sectionOffset image.header.sectionTableSize →
    IsWithin limits.fetchBytes.toNat
      (image.header.sectionStride.toNat * image.header.sectionCount.toNat)
      ((image.source files).readRange image.header.sectionOffset
        image.header.sectionTableSize).toOption
  unlisted : ¬ image.space.isResident image.header.sectionOffset image.header.sectionTableSize →
    limits.fetchBytes.toNat <
        image.header.sectionStride.toNat * image.header.sectionCount.toNat →
      image.sections = []
  names : ∀ sec, image.sections[image.header.nameSection.toNat]? = some sec →
    ¬ image.space.isResident sec.offset sec.byteSize →
    IsWithin limits.fetchBytes.toNat sec.byteSize.toNat ((image.source files).sectionNames?
      image.header ((image.source files).sectionHeaders image.header))
  unnamed : ∀ sec, image.sections[image.header.nameSection.toNat]? = some sec →
    ¬ image.space.isResident sec.offset sec.byteSize → limits.fetchBytes < sec.byteSize →
      ∀ other ∈ image.sections, other.name = ""
  fetched : ∀ sec ∈ image.sections, ∀ bytes, sec.residency = .fetched bytes →
    bytes.size = sec.byteSize.toNat ∧ sec.byteSize ≤ limits.fetchBytes
  fileBacked : ∀ sec : Section, sec.residency = .fileBacked → ∀ later : Files,
    IsWithin limits.fetchBytes.toNat sec.byteSize.toNat (image.sectionBytes later sec).toOption

theorem staysWithin_of_load {files : Files} {config : Config} {space : AddressSpace}
    {name : String} {path? : Option String} {image : Image}
    (loaded : load files config space name path? = .ok image) :
    image.StaysWithin files space.limits := by
  obtain ⟨head, header, segments, -, -, -, rfl⟩ := exists_of_load loaded
  let source : ImageSource := ⟨space.withSegments segments, files, path?⟩
  have bound : source.space.limits = space.limits := space.limits_withSegments segments
  have linked : ∀ linkage ∈ readLinkage? source.space header.layout segments,
      linkage.StaysWithin source.space ∧ ∃ segment, segments.find? (·.kind = .dynamic) =
        some segment ∧ linkage.byteSize =
          if source.space.isMapped then segment.memSize else segment.fileSize := by
    intro linkage told
    obtain ⟨segment, found, read⟩ := Option.bind_eq_some_iff.mp told
    have opened := eq_ok_of_toOption read
    obtain ⟨entries, rfl⟩ := Linkage.exists_ofEntries_of_read opened
    exact ⟨Linkage.staysWithin_of_read opened, segment, found, rfl⟩
  have listed : ¬ source.space.isResident header.sectionOffset header.sectionTableSize →
      IsWithin space.limits.fetchBytes.toNat
        (header.sectionStride.toNat * header.sectionCount.toNat)
        (source.readRange header.sectionOffset header.sectionTableSize).toOption := by
    intro outside
    rw [← bound, ← header.toNat_sectionTableSize]
    exact ImageSource.isWithin_readRange outside
  have named : ∀ sec, (source.staticSymbols header.layout
        (source.sections header)).2[header.nameSection.toNat]? = some sec →
      ¬ source.space.isResident sec.offset sec.byteSize →
      IsWithin space.limits.fetchBytes.toNat sec.byteSize.toNat
        (source.sectionNames? header (source.sectionHeaders header)) := by
    intro sec stands outside
    rw [← bound]
    exact ImageSource.isWithin_sectionNames?
      (ImageSource.getElem?_sectionHeaders_of_settled stands) outside
  constructor
  case bound => exact bound
  case linkage => exact linked
  case unlinked =>
    intro segment found excess
    apply Option.eq_none_iff_forall_not_mem.mpr
    intro linkage told
    obtain ⟨within, other, found', size⟩ := linked linkage told
    obtain rfl : segment = other := Option.some.inj (found.symm.trans found')
    obtain ⟨bytes, -, -, -, allowed⟩ := within.array
    rw [size, bound] at allowed
    exact UInt64.not_lt.mpr allowed excess
  case headers => exact listed
  case unlisted =>
    exact fun outside excess => ImageSource.sections_eq_nil ((listed outside).absent excess)
  case names => exact named
  case unnamed =>
    intro sec stands outside excess other there
    exact ImageSource.name_of_settled header.layout
      ((named sec stands outside).absent (UInt64.lt_iff_toNat_lt.mp excess)) there
  case fetched =>
    intro sec listed bytes copied
    obtain ⟨index, stands⟩ := List.getElem?_of_mem listed
    have within := ImageSource.isWithin_of_fetched stands copied
    rw [bound] at within
    exact within
  case fileBacked =>
    intro sec backed later
    have within := ({ source with files := later } : ImageSource).isWithin_fetch sec.offset
      sec.byteSize
    rw [← bound, Image.sectionBytes, ImageSource.sectionBytes, backed]
    exact within

theorem exists_content_of_ofFile {files : Files} {config : Config} {path : String} {image : Image}
    (opened : ofFile files config path = .ok image) :
    ∃ content : Bytes, load files config (.file (.ofFile content) content.size.toUInt64 config.io)
      path (some path) = .ok image := by
  unfold ofFile at opened
  cases found : files.content path with
  | error fault =>
      rw [found] at opened
      cases opened
  | ok content =>
      rw [found] at opened
      exact ⟨content, opened⟩

theorem memory_of_load {files : Files} {config : Config} {space : AddressSpace}
    {name : String} {path? : Option String} {image : Image}
    (loaded : load files config space name path? = .ok image) :
    image.space.memory = space.memory := by
  obtain ⟨head, header, segments, -, -, -, rfl⟩ := exists_of_load loaded
  obtain ⟨memory, placement, limits⟩ := space
  cases placement <;> rfl

theorem isConsistent_of_ofBytes {files : Files} {config : Config} {bytes : Bytes} {base : UInt64}
    {path? : Option String} {image : Image}
    (loaded : ofBytes files config bytes base path? = .ok image) :
    image.space.memory.IsConsistent := by
  rw [memory_of_load loaded]
  exact Memory.isConsistent_ofBytes base bytes

theorem isConsistent_of_ofFile {files : Files} {config : Config} {path : String} {image : Image}
    (opened : ofFile files config path = .ok image) : image.space.memory.IsConsistent := by
  obtain ⟨content, loaded⟩ := exists_content_of_ofFile opened
  rw [memory_of_load loaded]
  exact Memory.isConsistent_ofFile content

/-- A dynamic array and each table that it locates have just the bytes that are declared: the array
those of its segment, the strings and the relocations those that the entries tell, the symbols as
many strides as the hash table has links, and the hash table those that the counts call for that are
read first, which are its own if reads agree and no file has them at two places. So have the section
headers, the strings that name the sections, and every section whose bytes are fetched from the file
of the image, once or on each access. None of them is larger than the limit on what is read from
memory or on what is fetched, and one that is declared larger, or as a number of strides that no
word has room for, is absent, however the image is loaded. -/
theorem tables_stay_within_limits :
    (∀ (space : AddressSpace) (layout : Layout) (address byteSize : UInt64),
      (∀ linkage, Linkage.read space layout address byteSize = .ok linkage →
        linkage.byteSize = byteSize ∧ linkage.StaysWithin space) ∧
      (space.limits.tableBytes < byteSize →
        (Linkage.read space layout address byteSize).toOption = none)) ∧
    ∀ (files : Files) (config : Config),
      (∀ memory base high name path? image,
        ofMemory files config memory base high name path? = .ok image →
          image.StaysWithin files config.io) ∧
      (∀ bytes base path? image, ofBytes files config bytes base path? = .ok image →
        image.StaysWithin files config.io) ∧
      ∀ path image, ofFile files config path = .ok image → image.StaysWithin files config.io := by
  refine ⟨?_, ?_⟩
  · intro space layout address byteSize
    have within : ∀ linkage, Linkage.read space layout address byteSize = .ok linkage →
        linkage.byteSize = byteSize ∧ linkage.StaysWithin space := by
      intro linkage opened
      obtain ⟨entries, rfl⟩ := Linkage.exists_ofEntries_of_read opened
      exact ⟨rfl, Linkage.staysWithin_of_read opened⟩
    refine ⟨within, ?_⟩
    intro excess
    apply Option.eq_none_iff_forall_not_mem.mpr
    intro linkage opened
    obtain ⟨rfl, stays⟩ := within linkage (eq_ok_of_toOption opened)
    obtain ⟨bytes, -, -, -, allowed⟩ := stays.array
    exact UInt64.not_lt.mpr allowed excess
  · intro files config
    refine ⟨?_, ?_, ?_⟩
    · intro memory base high name path? image loaded
      exact staysWithin_of_load loaded
    · intro bytes base path? image loaded
      exact staysWithin_of_load loaded
    · intro path image opened
      obtain ⟨content, loaded⟩ := exists_content_of_ofFile opened
      exact staysWithin_of_load loaded

/-- One object whose section headers are fetched and one with a dynamic array, and what is left of
them where the one may not be fetched and the other not be read. -/
theorem tables_stay_within_small_limits :
    let files : Files := fun path => if path = "object" then some fourSectionObject else none
    let small : Config := { io := { fetchBytes := 100, tableBytes := 39 } }
    (∃ part, ofBytes files {} (fourSectionObject.extract 0 60) 0x1000 (some "object") = .ok part ∧
      part.sections.length = 4 ∧ part.StaysWithin files {}) ∧
    (∃ part, ofBytes files small (fourSectionObject.extract 0 60) 0x1000 (some "object") =
      .ok part ∧ part.sections = []) ∧
    (∃ image linkage hash buckets chains,
      ofBytes files {} oneSymbolObject 0x1000 none = .ok image ∧
      image.linkage? = some linkage ∧ linkage.StaysWithin image.space ∧
      linkage.symbols.hash? = some hash ∧
      DynamicSymbols.hashCounts? image.space linkage.layout linkage.symbols.hashAddress =
        some (buckets, chains) ∧
      hash.buckets.size = buckets.toNat ∧ hash.chains.size = chains.toNat) ∧
    ∃ image, ofBytes files small oneSymbolObject 0x1000 none = .ok image ∧
      image.linkage? = none := by
  intro files small
  have large : (ofBytes files {} (fourSectionObject.extract 0 60) 0x1000
      (some "object")).toOption.map (·.sections.length) = some 4 := by decide +kernel
  have outside : (ofBytes files small (fourSectionObject.extract 0 60) 0x1000
      (some "object")).toOption.map (fun part =>
        (part.space.isResident part.header.sectionOffset part.header.sectionTableSize,
          part.header.sectionStride, part.header.sectionCount)) = some (false, 40, 4) := by
    decide +kernel
  have linked : ∃ image ∈ (ofBytes files {} oneSymbolObject 0x1000 none).toOption,
      image.space.isMapped ∧ ∃ linkage ∈ image.linkage?, linkage.symbols.hash?.isSome := by
    decide +kernel
  have declared : (ofBytes files small oneSymbolObject 0x1000 none).toOption.map (fun image =>
      (image.space.isMapped, (image.findSegment? .dynamic).map (·.memSize))) =
        some (true, some 40) := by decide +kernel
  have within := fun config => (tables_stay_within_limits.2 files config).2.1
  refine ⟨?_, ?_, ?_, ?_⟩
  · obtain ⟨part, loaded, length⟩ := exists_of_toOption_map large
    exact ⟨part, loaded, length, within _ _ _ _ _ loaded⟩
  · obtain ⟨part, loaded, parts⟩ := exists_of_toOption_map outside
    obtain ⟨resident, rest⟩ := Prod.mk.inj parts
    obtain ⟨stride, count⟩ := Prod.mk.inj rest
    refine ⟨part, loaded, (within _ _ _ _ _ loaded).unlisted ?_ ?_⟩
    · rw [resident]
      exact Bool.false_ne_true
    · rw [stride, count]
      decide
  · obtain ⟨image, loaded, mapped, linkage, told, present⟩ := linked
    obtain ⟨hash, present⟩ := Option.isSome_iff_exists.mp present
    have loaded := eq_ok_of_toOption loaded
    have stays := ((within _ _ _ _ _ loaded).linkage linkage told).1
    obtain ⟨buckets, chains, kept⟩ := stays.hash hash present
    exact ⟨image, linkage, hash, buckets, chains, loaded, told, stays, present, kept.counted,
      kept.consistent (isConsistent_of_ofBytes loaded) (.inl mapped)⟩
  · obtain ⟨image, loaded, parts⟩ := exists_of_toOption_map declared
    obtain ⟨mapped, memSize⟩ := Prod.mk.inj parts
    obtain ⟨segment, found, size⟩ := Option.map_eq_some_iff.mp memSize
    refine ⟨image, loaded, (within _ _ _ _ _ loaded).unlinked segment found ?_⟩
    rw [if_pos mapped, size]
    decide

/-- The segments of a file of which two lie at the address of the hash table: the first has room for
the two counts only, the second for a whole table. -/
def overlappingSegments : List Segment :=
  [{ index := 0, typeCode := 1, flagBits := 4, offset := 148, vaddr := 0x1000, paddr := 0x1000
     fileSize := 8, memSize := 8, align := 4 },
    { index := 1, typeCode := 1, flagBits := 6, offset := 156, vaddr := 0x1000, paddr := 0x1000
      fileSize := 68, memSize := 68, align := 4 },
    { index := 2, typeCode := 2, flagBits := 6, offset := 208, vaddr := 0x1034, paddr := 0x1034
      fileSize := 16, memSize := 16, align := 4 }]

/-- The file: program headers, the counts of a table of five buckets and six links, a table of one
bucket and three links with zeros behind it, and the dynamic array. -/
def overlappedObject : Bytes :=
  let header : FileHeader :=
    { ident := ⟨.elf32, .little, 1, 0, 0⟩, typeCode := 3, machineCode := 3, version := 1, entry := 0
      segmentOffset := 52, sectionOffset := 0, flags := 0, headerSize := 52, segmentStride := 32
      segmentCount := 3, sectionStride := 40, sectionCount := 0, nameSection := 0 }
  let words := [5, 6] ++ [1, 3, 1, 0, 2, 0] ++ List.replicate 7 0 ++ [4, 0x1000, 0, 0]
  (header.encode ++ overlappingSegments.flatMap (Segment.encode header.layout) ++
    words.flatMap Endian.little.spell32).toArray

/-- The hash table of a file can be kept with more bytes than its own counts call for, although all
reads agree: the counts that it is read by stand in another segment. -/
theorem overlappedObject_outgrows_counts :
    let files : Files := fun path => if path = "object" then some overlappedObject else none
    ∃ image linkage hash bytes, ofFile files {} "object" = .ok image ∧
      image.linkage? = some linkage ∧ image.space.memory.IsConsistent ∧
      linkage.symbols.hash? = some hash ∧
      DynamicSymbols.hashCounts? image.space linkage.layout linkage.symbols.hashAddress =
        some (5, 6) ∧
      image.space.readTable linkage.symbols.hashAddress (HashTable.byteSize 5 6).toUInt64 =
        .ok bytes ∧
      HashTable.ofBytes? linkage.layout.order bytes = .ok hash ∧
      bytes.size = 52 ∧ (2 + hash.buckets.size + hash.chains.size) * 4 = 24 := by
  intro files
  have told : ∃ image ∈ (ofFile files {} "object").toOption, ∃ linkage ∈ image.linkage?,
      ∃ hash ∈ linkage.symbols.hash?, ∃ bytes ∈ (image.space.readTable linkage.symbols.hashAddress
        (HashTable.byteSize 5 6).toUInt64).toOption,
      DynamicSymbols.hashCounts? image.space linkage.layout linkage.symbols.hashAddress =
        some (5, 6) ∧ (HashTable.ofBytes? linkage.layout.order bytes).toOption = some hash ∧
      bytes.size = 52 ∧ (2 + hash.buckets.size + hash.chains.size) * 4 = 24 := by
    decide +kernel
  obtain ⟨image, opened, linkage, linked, hash, present, bytes, given, counted, parsed, sizes⟩ :=
    told
  have opened := eq_ok_of_toOption opened
  refine ⟨image, linkage, hash, bytes, opened, linked, ?_, present, counted,
    eq_ok_of_toOption given, eq_ok_of_toOption parsed, sizes⟩
  exact isConsistent_of_ofFile opened

end Image
end ElfLens
