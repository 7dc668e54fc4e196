import ElfLens.Proofs.LoadedFile
import ElfLens.Proofs.SectionResidency
import Mathlib.Data.List.Pairwise

set_option autoImplicit false

namespace ElfLens

namespace Segment

/-- Loading the segment puts the byte so far behind the base: it is taken from the file, or it is a
zero behind what the file has of the segment. -/
def Puts (segment : Segment) (content : Bytes) (distance : Nat) (byte : UInt8) : Prop :=
  ∃ i, distance = segment.vaddr.toNat + i ∧
    (i < segment.fileSize.toNat ∧ content[segment.offset.toNat + i]? = some byte ∨
      segment.fileSize.toNat ≤ i ∧ i < segment.memSize.toNat ∧ byte = 0)

/-- The segment takes up the byte so far behind the base. -/
def TakesUp (segment : Segment) (distance : Nat) : Prop :=
  ∃ i, distance = segment.vaddr.toNat + i ∧
    (i < segment.fileSize.toNat ∨ i < segment.memSize.toNat)

/-- No byte is taken up by both segments. -/
def IsApart (a b : Segment) : Prop := ∀ distance, a.TakesUp distance → ¬ b.TakesUp distance

variable {content : Bytes} {distance : Nat} {x y : UInt8}

theorem Puts.takesUp {segment : Segment} (puts : segment.Puts content distance x) :
    segment.TakesUp distance := by
  obtain ⟨i, place, ⟨inside, -⟩ | ⟨-, inside, -⟩⟩ := puts
  · exact ⟨i, place, .inl inside⟩
  · exact ⟨i, place, .inr inside⟩

theorem Puts.unique {segment : Segment} (first : segment.Puts content distance x)
    (second : segment.Puts content distance y) : x = y := by
  obtain ⟨i, place, filled⟩ := first
  obtain ⟨j, place', filled'⟩ := second
  obtain rfl : i = j := Nat.add_left_cancel (place.symm.trans place')
  rcases filled with ⟨inside, found⟩ | ⟨behind, -, rfl⟩
  · rcases filled' with ⟨-, found'⟩ | ⟨behind, -⟩
    · exact Option.some.inj (found.symm.trans found')
    · exact absurd inside (Nat.not_lt_of_le behind)
  · rcases filled' with ⟨inside, -⟩ | ⟨-, -, rfl⟩
    · exact absurd inside (Nat.not_lt_of_le behind)
    · rfl

/-- Of segments that are apart from each other, no two put different bytes at one place. -/
theorem unique_of_isApart {loads : List Segment} (apart : loads.Pairwise IsApart) {a b : Segment}
    (first : a ∈ loads) (second : b ∈ loads) (here : a.Puts content distance x)
    (there : b.Puts content distance y) : x = y := by
  let Agree : Segment → Segment → Prop := fun a b =>
    ∀ x y, a.Puts content distance x → b.Puts content distance y → x = y
  have symmetric : Std.Symm Agree := ⟨fun a b agree x y here there => (agree y x there here).symm⟩
  have pairs : loads.Pairwise Agree := apart.imp fun {a b} apart x y here there =>
    absurd there.takesUp (apart distance here.takesUp)
  exact List.Pairwise.forall_of_forall (fun a _ x y => Puts.unique) pairs first second x y here
    there

theorem isApart_of_le {a b : Segment}
    (behind : a.vaddr.toNat + max a.fileSize.toNat a.memSize.toNat ≤ b.vaddr.toNat) :
    a.IsApart b := by
  rintro distance ⟨i, place, inside⟩ ⟨j, place', -⟩
  omega

end Segment

/-- Whatever the memory gives behind the base was put there by one of the segments. -/
def Memory.HoldsLoads (memory : Memory) (base : UInt64) (content : Bytes)
    (loads : List Segment) : Prop :=
  ∀ address length part, memory.read address length = .ok part →
    ∀ i byte, part[i]? = some byte → ∃ distance, address.toNat + i = base.toNat + distance ∧
      ∃ segment ∈ loads, segment.Puts content distance byte

/-- The range of the file is put as far behind the base as it stands in the file. -/
def Bytes.LiesInPlace (content : Bytes) (loads : List Segment) (offset length : Nat) : Prop :=
  offset + length ≤ content.size ∧ ∀ i < length, ∃ byte, content[offset + i]? = some byte ∧
    ∃ segment ∈ loads, segment.Puts content (offset + i) byte

/-- A segment whose addresses are its file offsets is in place. -/
theorem Bytes.liesInPlace_of_mem {content : Bytes} {loads : List Segment} {segment : Segment}
    (listed : segment ∈ loads) (same : segment.vaddr = segment.offset) {offset length : Nat}
    (inside : offset + length ≤ content.size) (start : segment.offset.toNat ≤ offset)
    (stop : offset + length ≤ segment.offset.toNat + segment.fileSize.toNat) :
    content.LiesInPlace loads offset length := by
  refine ⟨inside, ?_⟩
  intro i before
  have there : offset + i < content.size := by omega
  have byte := Array.getElem?_eq_getElem there
  refine ⟨content[offset + i], byte, segment, listed, offset + i - segment.offset.toNat, ?_,
    .inl ?_⟩
  · rw [same]
    omega
  · refine ⟨by omega, ?_⟩
    rw [Nat.add_sub_of_le (by omega)]
    exact byte

namespace Memory

variable {memory : Memory} {base : UInt64} {content : Bytes} {loads : List Segment}

theorem holdsLoads_ofSegments (loadable : ∀ segment ∈ loads, segment.IsLoadable base content) :
    (ofSegments base content loads).HoldsLoads base content loads := by
  intro address length part read i byte there
  rw [ofSegments, ofChunks] at read
  dsimp only at read
  split at read
  · rename_i found
    cases read
    obtain ⟨chunk, listed, answer⟩ := List.exists_of_findSome?_eq_some found
    obtain ⟨segment, held, rfl⟩ := List.mem_map.mp listed
    obtain ⟨start, place, sliced⟩ := Chunk.read?_eq_some_iff.mp answer
    obtain ⟨inside, fits⟩ := loadable segment held
    have short := (Array.getElem?_eq_some_iff.mp there).1
    rw [Bytes.size_of_slice? sliced] at short
    rw [Bytes.getElem?_of_slice? sliced short] at there
    change (content.extract _ _)[start + i]? = some byte at there
    have within := (Array.getElem?_eq_some_iff.mp there).1
    rw [Array.size_extract] at within
    rw [Array.getElem?_extract] at there
    change address.toNat = (base + segment.vaddr).toNat + start at place
    rw [Word.toNat_add_of_fits fits] at place
    refine ⟨segment.vaddr.toNat + (start + i), by omega, segment, held, start + i, rfl, .inl ?_⟩
    refine ⟨by omega, ?_⟩
    rwa [if_pos (by omega)] at there
  · cases read

/-- What is read behind the base is the range of the file at that distance exactly if the range is
in place. -/
theorem slice?_iff_liesInPlace (holds : memory.HoldsLoads base content loads)
    (apart : loads.Pairwise Segment.IsApart) {address length : UInt64} {offset : Nat} {part : Bytes}
    (place : address.toNat = base.toNat + offset) (read : memory.read address length = .ok part) :
    content.slice? offset length.toNat = some part ↔
      content.LiesInPlace loads offset length.toNat := by
  have size := memory.size_of_read read
  have put : ∀ i byte, part[i]? = some byte →
      ∃ segment ∈ loads, segment.Puts content (offset + i) byte := by
    intro i byte there
    obtain ⟨distance, away, put⟩ := holds address length part read i byte there
    obtain rfl : distance = offset + i := by omega
    exact put
  constructor
  · intro sliced
    refine ⟨(Bytes.slice?_eq_some_iff.mp sliced).1, ?_⟩
    intro i inside
    have there := Array.getElem?_eq_getElem (show i < part.size by omega)
    refine ⟨part[i], ?_, put i _ there⟩
    rw [← Bytes.getElem?_of_slice? sliced inside]
    exact there
  · rintro ⟨inside, same⟩
    apply Bytes.slice?_eq_some_iff.mpr
    refine ⟨inside, Array.ext_getElem? ?_⟩
    intro i
    by_cases short : i < length.toNat
    · have there := Array.getElem?_eq_getElem (show i < part.size by omega)
      obtain ⟨byte, stored, segment, listed, puts⟩ := same i short
      obtain ⟨other, held, puts'⟩ := put i _ there
      rw [Array.getElem?_extract, if_pos (by omega), there, stored,
        Segment.unique_of_isApart apart held listed puts' puts]
    · rw [Array.getElem?_eq_none (by omega), Array.getElem?_eq_none]
      rw [Array.size_extract]
      omega

end Memory

namespace FileHeader

/-- Two headers are the same if their bytes are, as far as there are any. -/
theorem eq_of_decode {data content : Bytes} {told header : FileHeader}
    (first : decode data = .ok told) (second : decode content = .ok header)
    (front : ∀ i < header.layout.headerSize, i < data.size → data[i]? = content[i]?) :
    told = header := by
  obtain ⟨named, long, -⟩ := decode_eq_ok_iff.mp first
  obtain ⟨named', long', -⟩ := decode_eq_ok_iff.mp second
  have whole : ∀ layout : Layout, Ident.byteSize ≤ layout.headerSize := by
    intro layout
    unfold Layout.headerSize
    split <;> decide
  have same : ∀ size ≤ header.layout.headerSize, size ≤ data.size →
      data.extract 0 size = content.extract 0 size := by
    intro size few enough
    apply Array.ext_getElem?
    intro i
    rw [Array.getElem?_extract, Array.getElem?_extract, Nat.zero_add]
    by_cases short : i < size
    · rw [if_pos (by omega), if_pos (by omega), front i (by omega) (by omega)]
    · rw [if_neg (by omega), if_neg (by omega)]
  -- The identification tells how long the header is, so it has to be settled first.
  have ident : told.ident = header.ident := by
    have named_front : Ident.decode (data.extract 0 Ident.byteSize) = Ident.decode data :=
      Ident.decode_extract (Nat.le_refl _)
    rw [same Ident.byteSize (whole _) (Nat.le_trans (whole _) long),
      Ident.decode_extract (Nat.le_refl _), named, named'] at named_front
    exact (Except.ok.inj named_front).symm
  have layout : told.layout = header.layout := by rw [FileHeader.layout, ident, FileHeader.layout]
  rw [layout] at long
  have told_front := decode_extract first (Nat.le_of_eq (congrArg Layout.headerSize layout))
  rw [same _ (Nat.le_refl _) long, decode_extract second (Nat.le_refl _)] at told_front
  exact (Except.ok.inj told_front).symm

end FileHeader

namespace ImageSource

variable {source : ImageSource}

/-- A section that was not found to be empty gives the range that its header tells, whether it was
read for good or not. -/
theorem sectionBytes_of_settled {before after : Section} (backed : source.path?.isSome)
    (unread : before.residency = source.residencyOf before.toSectionHeader)
    (settled : after = before ∨ after = before.settle (source.sectionBytes before))
    (filled : after.residency ≠ .empty) :
    source.sectionBytes after = source.readRange after.offset after.byteSize := by
  have read := sectionBytes_of_unread backed unread
  by_cases blank : before.isBlank
  · have empty : before.residency = .empty := by rw [unread, residencyOf, if_pos blank]
    rw [if_pos blank] at read
    have same : before.settle (.ok #[]) = before :=
      Section.settle_of_ok #[] (by rw [empty]; exact Residency.noConfusion)
    rw [read, same, or_self] at settled
    rw [settled] at filled
    exact absurd empty filled
  · rw [if_neg blank] at read
    rcases settled with rfl | rfl
    · exact read
    · have header : (before.settle (source.sectionBytes before)).toSectionHeader =
          before.toSectionHeader := congrArg Prod.fst (Section.told_settle before _)
      rw [sectionBytes_settle, header, ← read]
      cases outcome : source.sectionBytes before with
      | error fault =>
          rw [outcome] at filled
          exact absurd rfl filled
      | ok part => rfl

/-- Section headers that are there come from one table that was read. -/
theorem exists_readRange_of_sectionHeaders {header : FileHeader}
    (present : source.sectionHeaders header ≠ []) :
    ∃ table, source.readRange header.sectionOffset header.sectionTableSize = .ok table ∧
      SectionHeader.decodeTable table header.sectionStride.toNat header.sectionCount.toNat
        header.layout = .ok (source.sectionHeaders header) := by
  unfold sectionHeaders at present ⊢
  split at present
  · exact absurd rfl present
  · rename_i there
    rw [if_neg there]
    cases read : source.readRange header.sectionOffset header.sectionTableSize with
    | error fault =>
        rw [read] at present
        exact absurd rfl present
    | ok table =>
        refine ⟨table, rfl, ?_⟩
        simp only [read, bind, Except.bind] at present ⊢
        split
        · assumption
        · rename_i fault failed
          rw [failed] at present
          exact absurd rfl present

theorem toSectionHeader_sections (source : ImageSource) (header : FileHeader) :
    (source.sections header).map (·.toSectionHeader) = source.sectionHeaders header := by
  unfold sections
  dsimp only
  rw [List.map_map]
  exact List.zipIdx_map_fst 0 _

/-- A range that was read is the range of the file, exactly if it lies in place or was not read in
place. -/
theorem slice?_iff_of_readRange {memory : Memory} {base high : UInt64} {limits : Limits}
    {files : Files} {path : String} {content : Bytes} {loads : List Segment}
    (holds : memory.HoldsLoads base content loads) (apart : loads.Pairwise Segment.IsApart)
    (found : files path = some content) {offset length : UInt64} {part : Bytes}
    (read : readRange ⟨.mapped memory base high limits, files, some path⟩ offset length =
      .ok part) :
    content.slice? offset.toNat length.toNat = some part ↔
      ((AddressSpace.mapped memory base high limits).isResident offset length →
        content.LiesInPlace loads offset.toNat length.toNat) := by
  unfold readRange at read
  by_cases resident : (AddressSpace.mapped memory base high limits).isResident offset length
  · rw [if_pos resident] at read
    obtain ⟨address, place, read⟩ := AddressSpace.read_of_readImage_mapped _ _ _ _ read
    rw [Memory.slice?_iff_liesInPlace holds apart place read]
    exact ⟨fun lies _ => lies, fun lies => lies resident⟩
  · rw [if_neg resident, fetch_of_path rfl] at read
    obtain ⟨_, present, sliced, -⟩ := Files.fetch_eq_ok_iff.mp read
    cases found.symm.trans present
    exact iff_of_true sliced fun inside => absurd inside resident

/-- Reading the link-time symbols for good leaves the section headers as they were read. -/
theorem toSectionHeader_staticSymbols (source : ImageSource) (header : FileHeader) :
    (source.staticSymbols header.layout (source.sections header)).2.map (·.toSectionHeader) =
      source.sectionHeaders header := by
  have told : (source.staticSymbols header.layout (source.sections header)).2.map Section.told =
      (source.sections header).map Section.told := told_staticSymbols header.layout
  have heads := congrArg (List.map Prod.fst) told
  rw [List.map_map, List.map_map] at heads
  rw [← source.toSectionHeader_sections]
  exact heads

end ImageSource

namespace Image

/-- What an image in memory gives of the file that it was loaded from: the file header, and the
ranges of the file that hold the section headers and the sections, exactly if these lie in place or
are not read in place. -/
structure HoldsFile (image : Image) (files : Files) (told : FileHeader) (content : Bytes)
    (loads : List Segment) : Prop where
  header : image.header = told
  headers : image.sections ≠ [] → ∃ table,
    SectionHeader.decodeTable table told.sectionStride.toNat told.sectionCount.toNat told.layout =
      .ok (image.sections.map (·.toSectionHeader)) ∧
    (content.slice? told.sectionOffset.toNat told.sectionTableSize.toNat = some table ↔
      (image.space.isResident told.sectionOffset told.sectionTableSize →
        content.LiesInPlace loads told.sectionOffset.toNat told.sectionTableSize.toNat))
  bytes : ∀ sec ∈ image.sections, sec.residency ≠ .empty → ∀ part,
    image.sectionBytes files sec = .ok part →
    (content.slice? sec.offset.toNat sec.byteSize.toNat = some part ↔
      (image.space.isResident sec.offset sec.byteSize →
        content.LiesInPlace loads sec.offset.toNat sec.byteSize.toNat))

theorem decode_of_ofFile {files : Files} {config : Config} {path : String} {content : Bytes}
    {linked : Image} (found : files path = some content) (small : content.size < UInt64.size)
    (opened : ofFile files config path = .ok linked) :
    FileHeader.decode content = .ok linked.header := by
  obtain ⟨space, shows, -, loaded⟩ := exists_load_of_ofFile found small opened
  rw [← header_of_load files config path (some path) shows, loaded]
  rfl

/-- The first segment has the file header in place, so it is read from memory as from the file. -/
theorem header_of_holdsLoads {files : Files} {config : Config} {memory : Memory}
    {base high : UInt64} {name : String} {path? : Option String} {content : Bytes}
    {loads : List Segment} {header : FileHeader} {image : Image}
    (decoded : FileHeader.decode content = .ok header)
    (holds : memory.HoldsLoads base content loads) (apart : loads.Pairwise Segment.IsApart)
    {first : Segment} (listed : first ∈ loads) (start : first.offset = 0)
    (origin : first.vaddr = 0) (covers : header.layout.headerSize ≤ first.fileSize.toNat)
    (loaded : ofMemory files config memory base high name path? = .ok image) :
    image.header = header := by
  obtain ⟨head, told, segments, front, read, -, rfl⟩ := exists_of_load loaded
  obtain ⟨address, place, given⟩ := AddressSpace.read_of_readImage_mapped _ _ _ _ front
  refine FileHeader.eq_of_decode read decoded ?_
  intro i inside short
  have there := Array.getElem?_eq_getElem short
  obtain ⟨distance, away, segment, held, puts⟩ := holds _ _ _ given i _ there
  have long := (FileHeader.decode_eq_ok_iff.mp decoded).2.1
  have byte := Array.getElem?_eq_getElem (show i < content.size by omega)
  rw [UInt64.toNat_zero] at place
  obtain rfl : distance = i := by omega
  have puts' : first.Puts content distance content[distance] := by
    refine ⟨distance, ?_, .inl ⟨by omega, ?_⟩⟩
    · rw [origin, UInt64.toNat_zero, Nat.zero_add]
    · rw [start, UInt64.toNat_zero, Nat.zero_add]
      exact byte
  rw [there, byte, Segment.unique_of_isApart apart held listed puts puts']

/-- A file that was loaded into memory, each of its segments where it was linked for and the first
one with the file header in place, is found there again as far as its segments left it in place, and
a segment whose addresses are its file offsets leaves all of its bytes there. -/
theorem holdsFile_of_ofMemory {files : Files} {config : Config} {path : String} {content : Bytes}
    {linked : Image} (found : files path = some content) (small : content.size < UInt64.size)
    (opened : ofFile files config path = .ok linked) {memory : Memory} {base : UInt64}
    (holds : memory.HoldsLoads base content (linked.segmentsOf .load))
    (apart : (linked.segmentsOf .load).Pairwise Segment.IsApart) {first : Segment}
    {rest : List Segment} (loads : linked.segmentsOf .load = first :: rest)
    (start : first.offset = 0) (origin : first.vaddr = 0)
    (covers : linked.header.layout.headerSize ≤ first.fileSize.toNat) {high : UInt64}
    {name : String} {image : Image}
    (loaded : ofMemory files config memory base high name (some path) = .ok image) :
    image.HoldsFile files linked.header content (linked.segmentsOf .load) ∧
      ∀ segment ∈ linked.segmentsOf .load, segment.vaddr = segment.offset →
        ∀ offset length, segment.offset.toNat ≤ offset →
          offset + length ≤ segment.offset.toNat + segment.fileSize.toNat →
          offset + length ≤ content.size →
          content.LiesInPlace (linked.segmentsOf .load) offset length := by
  have decoded := decode_of_ofFile found small opened
  have listed : first ∈ linked.segmentsOf .load := loads ▸ List.mem_cons_self ..
  have same := header_of_holdsLoads decoded holds apart listed start origin covers loaded
  refine ⟨?_, fun segment listed straight offset length start stop inside =>
    Bytes.liesInPlace_of_mem listed straight inside start stop⟩
  obtain ⟨_, header, segments, -, -, -, rfl⟩ := exists_of_load loaded
  obtain rfl : header = linked.header := same
  let source : ImageSource := ⟨.mapped memory base high config.io, files, some path⟩
  let image := assembled files config (.mapped memory base high config.io) name (some path)
    linked.header segments
  have space : image.space = .mapped memory base high config.io :=
    AddressSpace.withSegments_mapped _ _ _ _ _
  have whole : image.source files = source := by
    change ImageSource.mk image.space files (some path) = source
    rw [space]
  let made := source.staticSymbols linked.header.layout (source.sections linked.header)
  have sections : image.sections = made.2 := by
    change ((image.source files).staticSymbols linked.header.layout
      ((image.source files).sections linked.header)).2 = _
    rw [whole]
  constructor
  case header => rfl
  case headers =>
    intro present
    have headers : made.2.map (·.toSectionHeader) = source.sectionHeaders linked.header :=
      source.toSectionHeader_staticSymbols linked.header
    change image.sections ≠ [] at present
    rw [sections, Ne, ← List.map_eq_nil_iff (f := (·.toSectionHeader)), headers] at present
    obtain ⟨table, read, decoded⟩ := ImageSource.exists_readRange_of_sectionHeaders present
    refine ⟨table, ?_, ?_⟩
    · change _ = Except.ok (image.sections.map (·.toSectionHeader))
      rw [sections, headers]
      exact decoded
    · change _ ↔ (image.space.isResident _ _ → _)
      rw [space]
      exact ImageSource.slice?_iff_of_readRange holds apart found read
  case bytes =>
    intro sec listed filled part read
    obtain ⟨index, stands⟩ := List.getElem?_of_mem listed
    change image.sections[index]? = some sec at stands
    rw [sections] at stands
    have settles := source.settles_staticSymbols linked.header.layout
      (source.sections linked.header)
    obtain ⟨before, fresh, settled⟩ := settles.exists_before stands
    have unread := (ImageSource.index_of_sections fresh).2
    have ranged := ImageSource.sectionBytes_of_settled rfl unread (settled.imp_right And.right)
      filled
    change (image.source files).sectionBytes sec = .ok part at read
    rw [whole, ranged] at read
    change _ ↔ (image.space.isResident _ _ → _)
    rw [space]
    exact ImageSource.slice?_iff_of_readRange holds apart found read

/-- The segments of a 32-bit shared object: the second one is linked for an address that is not its
file offset. -/
def shiftedLoads : List Segment :=
  [{ index := 0, typeCode := 1, flagBits := 5, offset := 0, vaddr := 0, paddr := 0
     fileSize := 0x120, memSize := 0x120, align := 16 },
    { index := 1, typeCode := 1, flagBits := 6, offset := 0x120, vaddr := 0x130, paddr := 0x130
      fileSize := 16, memSize := 16, align := 16 }]

/-- The object: program headers, section headers, instructions, the data of the second segment, and
behind them a comment that is not loaded. -/
def shiftedObject : Bytes :=
  let header : FileHeader :=
    { ident := ⟨.elf32, .little, 1, 0, 0⟩, typeCode := 3, machineCode := 3, version := 1, entry := 0
      segmentOffset := 52, sectionOffset := 116, flags := 0, headerSize := 52, segmentStride := 32
      segmentCount := 2, sectionStride := 40, sectionCount := 4, nameSection := 0 }
  let sections : List SectionHeader :=
    [⟨0, 0, 0, 0, 0, 0, 0, 0, 0, 0⟩, ⟨0, 1, 6, 276, 276, 12, 0, 0, 4, 0⟩,
      ⟨0, 1, 3, 0x130, 0x120, 16, 0, 0, 4, 0⟩, ⟨0, 1, 0x30, 0, 0x130, 16, 0, 0, 1, 0⟩]
  (header.encode ++ shiftedLoads.flatMap (Segment.encode header.layout) ++
    sections.flatMap (SectionHeader.encode header.layout) ++ List.replicate 12 0x90 ++
    List.replicate 16 0x44 ++ List.replicate 16 0x43).toArray

theorem isApart_shiftedLoads : shiftedLoads.Pairwise Segment.IsApart := by
  refine .cons ?_ (List.pairwise_singleton _ _)
  intro segment listed
  obtain rfl := List.mem_singleton.mp listed
  exact Segment.isApart_of_le (by decide)

def shiftedFiles : Files := fun path => if path = "object" then some shiftedObject else none

def shiftedMemory : Memory := .ofSegments 0x10000 shiftedObject shiftedLoads

theorem exists_linked_shiftedObject :
    ∃ linked, ofFile shiftedFiles {} "object" = .ok linked ∧ linked.header.isSharedObject ∧
      linked.segmentsOf .load = shiftedLoads ∧ linked.header.layout.headerSize = 52 := by
  have told : (ofFile shiftedFiles {} "object").toOption.map (fun linked =>
      (linked.header.isSharedObject, linked.segmentsOf .load, linked.header.layout.headerSize)) =
        some (true, shiftedLoads, 52) := by decide +kernel
  obtain ⟨linked, opened, parts⟩ := exists_of_toOption_map told
  obtain ⟨shared, rest⟩ := Prod.mk.inj parts
  obtain ⟨loads, headerSize⟩ := Prod.mk.inj rest
  exact ⟨linked, opened, shared, loads, headerSize⟩

theorem exists_loaded_shiftedObject :
    ∃ image, ofMemory shiftedFiles {} shiftedMemory 0x10000 0x10140 "object" (some "object") =
        .ok image ∧
      ∃ sec ∈ image.sections[3]?, ¬ sec.isNoBits ∧ sec.byteSize ≠ 0 ∧ sec.residency ≠ .empty ∧
        (image.sectionBytes shiftedFiles sec).toOption = some (Array.replicate 16 0x44) ∧
        shiftedObject.slice? sec.offset.toNat sec.byteSize.toNat =
          some (Array.replicate 16 0x43) := by
  have told : (ofMemory shiftedFiles {} shiftedMemory 0x10000 0x10140 "object"
      (some "object")).toOption.map (fun image => decide (∃ sec ∈ image.sections[3]?,
        ¬ sec.isNoBits ∧ sec.byteSize ≠ 0 ∧ sec.residency ≠ .empty ∧
        (image.sectionBytes shiftedFiles sec).toOption = some (Array.replicate 16 0x44) ∧
        shiftedObject.slice? sec.offset.toNat sec.byteSize.toNat =
          some (Array.replicate 16 0x43))) = some true := by decide +kernel
  obtain ⟨image, loaded, moved⟩ := exists_of_toOption_map told
  exact ⟨image, loaded, of_decide_eq_true moved⟩

/-- Where the file has the comment, the memory has the data: the comment lies inside the image, is
read in place, and is not what the file holds. -/
theorem shiftedObject_in_place :
    shiftedLoads.Pairwise Segment.IsApart ∧
    (∃ linked, ofFile shiftedFiles {} "object" = .ok linked ∧ linked.header.isSharedObject ∧
      linked.segmentsOf .load = shiftedLoads ∧ linked.header.layout.headerSize = 52) ∧
    ∃ image, ofMemory shiftedFiles {} shiftedMemory 0x10000 0x10140 "object" (some "object") =
        .ok image ∧
      ∃ sec ∈ image.sections[3]?, ¬ sec.isNoBits ∧ sec.byteSize ≠ 0 ∧ sec.residency ≠ .empty ∧
        (image.sectionBytes shiftedFiles sec).toOption = some (Array.replicate 16 0x44) ∧
        shiftedObject.slice? sec.offset.toNat sec.byteSize.toNat =
          some (Array.replicate 16 0x43) :=
  ⟨isApart_shiftedLoads, exists_linked_shiftedObject, exists_loaded_shiftedObject⟩

/-- The instructions of the object lie in the first segment, which is in place. -/
theorem shiftedObject_holdsFile :
    ∃ linked image, ofFile shiftedFiles {} "object" = .ok linked ∧
      ofMemory shiftedFiles {} shiftedMemory 0x10000 0x10140 "object" (some "object") = .ok image ∧
      image.HoldsFile shiftedFiles linked.header shiftedObject shiftedLoads ∧
      shiftedObject.LiesInPlace shiftedLoads 276 12 := by
  obtain ⟨linked, opened, -, loads, headerSize⟩ := exists_linked_shiftedObject
  obtain ⟨image, loaded, -⟩ := exists_loaded_shiftedObject
  have loadable : ∀ segment ∈ shiftedLoads, segment.IsLoadable 0x10000 shiftedObject := by
    decide +kernel
  obtain ⟨holds, straight⟩ := holdsFile_of_ofMemory
    (show shiftedFiles "object" = some shiftedObject from rfl) (by decide +kernel) opened
    (by rw [loads]; exact Memory.holdsLoads_ofSegments loadable)
    (by rw [loads]; exact isApart_shiftedLoads) loads rfl rfl (by rw [headerSize]; decide) loaded
  rw [loads] at holds straight
  refine ⟨linked, image, opened, loaded, holds, ?_⟩
  exact straight _ (List.mem_cons_self ..) rfl 276 12 (by decide) (by decide) (by decide +kernel)

end Image

end ElfLens
