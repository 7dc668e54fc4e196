import ElfLens.Proofs.BackingFile

set_option autoImplicit false

namespace ElfLens

namespace AddressSpace

theorem toNat_length_file {memory : Memory} {size : Nat} {limits : Limits}
    (small : size < UInt64.size) : (file memory size.toUInt64 limits).length.toNat = size := by
  rw [toNat_length]
  change size.toUInt64.toNat - (0 : UInt64).toNat = size
  rw [UInt64.toNat_zero, Nat.sub_zero]
  exact UInt64.toNat_ofNat_of_lt' small

theorem shows_file {content : Bytes} {limits : Limits} (filled : content ≠ #[])
    (small : content.size < UInt64.size) :
    (file (.ofFile content) content.size.toUInt64 limits).Shows content where
  length := toNat_length_file small
  readImage := by
    intro offset length inside
    rw [readImage, if_pos]
    · change (Memory.ofFile content).read (0 + offset) length = _
      rw [UInt64.zero_add, Memory.read_ofFile filled, Bytes.slice?_eq_some_iff.mpr ⟨inside, rfl⟩]
    · rw [isResident, toNat_length_file small, decide_eq_true_eq]
      exact inside

/-- The segments of a file say where its addresses lie, not which of its offsets there are. -/
theorem isResident_withSegments (space : AddressSpace) (segments : List Segment) :
    (space.withSegments segments).isResident = space.isResident := by
  obtain ⟨memory, placement, limits⟩ := space
  cases placement <;> rfl

/-- A table that is not empty lies at the location, and its bytes can be read. -/
def Gives (space : AddressSpace) (location : TableLocation) : Prop :=
  location.isPresent ∧ location.byteSize ≠ 0 ∧
    (space.readTable location.address location.byteSize).isOk

theorem isSome_tableAt?_iff {space : AddressSpace} {location : TableLocation} :
    (space.tableAt? location).isSome ↔ space.Gives location := by
  unfold tableAt? Gives
  by_cases there : location.isPresent ∧ location.byteSize ≠ 0
  · rw [if_pos there, isSome_toOption]
    exact ⟨fun read => ⟨there.1, there.2, read⟩, fun gives => gives.2.2⟩
  · rw [if_neg there]
    exact iff_of_false (by simp) fun gives => there ⟨gives.1, gives.2.1⟩

end AddressSpace

namespace ImageSource

variable {source : ImageSource} {sections : List Section}

/-- The section at a place is there, and its bytes can be read. -/
def CanRead (source : ImageSource) (sections : List Section) (index : Nat) : Prop :=
  ∃ sec, sections[index]? = some sec ∧ (source.sectionBytes sec).isOk

theorem size_of_readRange {offset length : UInt64} {bytes : Bytes}
    (read : source.readRange offset length = .ok bytes) : bytes.size = length.toNat := by
  unfold readRange at read
  by_cases resident : source.space.isResident offset length
  · rw [if_pos resident, AddressSpace.readImage, if_pos resident] at read
    exact source.space.memory.size_of_read read
  · rw [if_neg resident, fetch] at read
    split at read
    · cases read
    · obtain ⟨_, -, sliced, -⟩ := Files.fetch_eq_ok_iff.mp read
      exact Bytes.size_of_slice? sliced

/-- The section headers of an accepted header are as many as it counts, if they can be read. -/
theorem length_sectionHeaders {header : FileHeader} (sound : header.defect? = none) :
    (source.sectionHeaders header).length =
      if header.sectionOffset ≠ 0 ∧
        (source.readRange header.sectionOffset header.sectionTableSize).isOk
      then header.sectionCount.toNat else 0 := by
  unfold sectionHeaders
  by_cases absent : header.sectionOffset = 0 ∨ header.sectionCount = 0
  · rw [if_pos absent]
    rcases absent with nowhere | none
    · simp [nowhere]
    · simp [none]
  · rw [if_neg absent]
    obtain ⟨somewhere, some⟩ := not_or.mp absent
    cases read : source.readRange header.sectionOffset header.sectionTableSize with
    | error fault => simp [bind, Except.bind, Except.isOk, Except.toBool]
    | ok table =>
        have size := (size_of_readRange read).trans header.toNat_sectionTableSize
        have bound := header.sectionTableSize.toNat_lt
        rw [header.toNat_sectionTableSize] at bound
        obtain ⟨headers, decoded, length⟩ := SectionHeader.exists_decodeTable
          (Nat.le_of_eq size.symm) bound (FileHeader.sectionSize_le_of_defect? sound some)
        simp only [bind, Except.bind, decoded, length]
        rw [if_pos ⟨somewhere, rfl⟩]

theorem length_sections (header : FileHeader) :
    (source.sections header).length = (source.sectionHeaders header).length := by
  rw [sections, List.length_map, List.length_zipIdx]

theorem name_of_unread {header : FileHeader} {sec : Section}
    (unnamed : source.sectionNames? header (source.sectionHeaders header) = none)
    (listed : sec ∈ source.sections header) : sec.name = "" := by
  unfold sections at listed
  obtain ⟨⟨told, index⟩, -, rfl⟩ := List.mem_map.mp listed
  dsimp only
  rw [unnamed]
  rfl

theorem keep_of_getElem? {index : Nat} {sec : Section} (stands : sections[index]? = some sec) :
    source.keep sections index = ((source.sectionBytes sec).toOption,
      sections.set index (sec.settle (source.sectionBytes sec))) := by
  rw [keep, stands]

theorem isSome_keep_iff (source : ImageSource) (sections : List Section) (index : Nat) :
    (source.keep sections index).1.isSome ↔ source.CanRead sections index := by
  unfold CanRead
  cases stands : sections[index]? with
  | none => simp [keep, stands]
  | some sec =>
      rw [keep_of_getElem? stands, isSome_toOption]
      simp only [Option.some.injEq, exists_eq_left']

/-- A section that was read for good can still be read, and so can any other. -/
theorem canRead_keep {index position : Nat} (kept : source.CanRead sections index) :
    source.CanRead (source.keep sections index).2 position ↔ source.CanRead sections position := by
  obtain ⟨sec, stands, readable⟩ := kept
  have inside := (List.getElem?_eq_some_iff.mp stands).1
  rw [keep_of_getElem? stands]
  unfold CanRead
  rw [List.getElem?_set]
  by_cases here : index = position
  · subst here
    rw [if_pos rfl, if_pos inside]
    refine iff_of_true ⟨_, rfl, ?_⟩ ⟨sec, stands, readable⟩
    rw [sectionBytes_settle]
    rfl
  · rw [if_neg here]

theorem told_keep (source : ImageSource) (sections : List Section) (index : Nat) :
    (source.keep sections index).2.map Section.told = sections.map Section.told := by
  cases stands : sections[index]? with
  | none => rw [keep, stands]
  | some sec =>
      obtain ⟨inside, same⟩ := List.getElem?_eq_some_iff.mp stands
      have place : index < (sections.map Section.told).length := by rwa [List.length_map]
      have told : (sections.map Section.told)[index] = sec.told := by rw [List.getElem_map, same]
      rw [keep_of_getElem? stands, List.map_set, Section.told_settle, ← told,
        List.set_getElem_self]

/-- Looking for the link-time symbols changes nothing that is told of a section. -/
theorem told_staticSymbols (layout : Layout) :
    (source.staticSymbols layout sections).2.map Section.told = sections.map Section.told := by
  let Same : List Section → Prop := fun now => now.map Section.told = sections.map Section.told
  have step : ∀ now index, IsAsked sections index → Same now → Same (source.keep now index).2 :=
    fun now index _ same => (source.told_keep now index).trans same
  exact property_of_staticSymbols (show Same sections from rfl) step

/-- Without the strings that hold the names, no section has one, whatever was read of them since. -/
theorem name_of_settled (layout : Layout) {header : FileHeader} {sec : Section}
    (unnamed : source.sectionNames? header (source.sectionHeaders header) = none)
    (listed : sec ∈ (source.staticSymbols layout (source.sections header)).2) : sec.name = "" := by
  have heard : sec.told ∈ (source.sections header).map Section.told := by
    rw [← told_staticSymbols layout]
    exact List.mem_map_of_mem listed
  obtain ⟨fresh, placed, same⟩ := List.mem_map.mp heard
  have name : fresh.name = sec.name := congrArg (fun told => told.2.2) same
  rw [← name]
  exact name_of_unread unnamed placed

/-- There are link-time symbols exactly if they and their strings can be read. -/
theorem isSome_staticSymbols_iff (layout : Layout) :
    (source.staticSymbols layout sections).1.isSome ↔
      ∃ table, sections.find? (·.kind = .symTab) = some table ∧
        source.CanRead sections table.index ∧ source.CanRead sections table.link.toNat := by
  unfold staticSymbols
  cases found : sections.find? (·.kind = .symTab) with
  | none => simp
  | some table =>
      simp only [Option.some.injEq, exists_eq_left']
      by_cases outside : sections.length ≤ table.link.toNat
      · rw [if_pos outside]
        refine iff_of_false (by simp) ?_
        rintro ⟨-, sec, stands, -⟩
        rw [List.getElem?_eq_none outside] at stands
        cases stands
      · rw [if_neg outside]
        have symbols := source.isSome_keep_iff sections table.index
        -- The strings are read from what reading the symbols has made of the sections.
        have later : source.CanRead sections table.index → (source.CanRead
            (source.keep sections table.index).2 table.link.toNat ↔
              source.CanRead sections table.link.toNat) := canRead_keep
        generalize source.keep sections table.index = kept at symbols later
        obtain ⟨read, rest⟩ := kept
        cases read with
        | none => exact iff_of_false (by simp) fun both => by simpa using symbols.mpr both.1
        | some bytes =>
            have readable := symbols.mp rfl
            have strings := source.isSome_keep_iff rest table.link.toNat
            rw [← later readable]
            dsimp only at strings ⊢
            generalize source.keep rest table.link.toNat = kept at strings
            obtain ⟨read, last⟩ := kept
            cases read with
            | none => exact iff_of_false (by simp) fun both => by simpa using strings.mpr both.2
            | some bytes =>
                refine iff_of_true ?_ ⟨readable, strings.mp rfl⟩
                have spaced : 0 < if table.stride = 0 then layout.symbolSize
                    else table.stride.toNat := by
                  split
                  · exact layout.symbolSize_pos
                  · rename_i nonzero
                    exact UInt64.pos_iff_ne_zero.mpr nonzero
                dsimp only
                rw [Table.make?, dif_pos spaced]
                rfl

end ImageSource

theorem Linkage.isOk_read_iff (space : AddressSpace) (layout : Layout)
    (address byteSize : UInt64) :
    (read space layout address byteSize).isOk ↔ (space.readTable address byteSize).isOk := by
  rw [read]
  cases space.readTable address byteSize <;> rfl

theorem DynamicSymbols.isSome_symbols?_locate {space : AddressSpace} {layout : Layout}
    {entries : List DynamicEntry} :
    (locate space layout entries).symbols?.isSome ↔
      space.Gives (locate space layout entries).symbolLocation := by
  -- A stride of zero stands for the natural one, so the records always have a size.
  have spaced : 0 < (strideOr (DynamicEntry.sizeOf DynamicTag.symbolStride entries)
      layout.symbolSize).toNat := by
    unfold strideOr
    split
    · unfold Layout.symbolSize
      split <;> decide
    · rename_i nonzero
      exact UInt64.pos_iff_ne_zero.mpr nonzero
  rw [← AddressSpace.isSome_tableAt?_iff]
  unfold locate
  dsimp only
  cases space.tableAt? _ with
  | none => rfl
  | some bytes =>
      rw [Option.bind_some, Table.make?, dif_pos spaced]
      rfl

namespace Image

/-- How much there is of each part of an image: all of it if it can be read, and nothing of it if it
cannot, whatever can be read of the other parts. -/
structure HoldsReadable (image : Image) (files : Files) : Prop where
  segments : image.segments.length =
    if image.header.segmentOffset ≠ 0 ∧
      image.space.isResident image.header.segmentOffset image.header.segmentTableSize
    then image.header.segmentCount.toNat else 0
  linkage : image.linkage?.isSome ↔
    ∃ segment, image.findSegment? .dynamic = some segment ∧
      (image.space.readTable (image.space.normalize segment.vaddr)
        (if image.space.isMapped then segment.memSize else segment.fileSize)).isOk
  strings : ∀ linkage ∈ image.linkage?, (linkage.symbols.strings?.isSome ↔
    image.space.Gives linkage.symbols.stringLocation)
  symbols : ∀ linkage ∈ image.linkage?, (linkage.symbols.symbols?.isSome ↔
    image.space.Gives linkage.symbols.symbolLocation)
  sections : image.sections.length =
    if image.header.sectionOffset ≠ 0 ∧
      ((image.source files).readRange image.header.sectionOffset
        image.header.sectionTableSize).isOk
    then image.header.sectionCount.toNat else 0
  names : (image.source files).sectionNames? image.header
      ((image.source files).sectionHeaders image.header) = none →
    ∀ sec ∈ image.sections, sec.name = ""
  statics : image.statics?.isSome ↔
    ∃ table, ((image.source files).sections image.header).find? (·.kind = .symTab) = some table ∧
      (image.source files).CanRead ((image.source files).sections image.header) table.index ∧
      (image.source files).CanRead ((image.source files).sections image.header) table.link.toNat

variable {files : Files} {config : Config} {space : AddressSpace} {name : String}
  {path? : Option String} {bytes : Bytes}

theorem header_of_load (files : Files) (config : Config) (name : String) (path? : Option String)
    (shows : space.Shows bytes) :
    (load files config space name path?).map (·.header) = FileHeader.decode bytes := by
  cases decoded : FileHeader.decode bytes with
  | error fault =>
      rw [load_eq, readImage_head shows]
      simp only [bind, Except.bind, decode_head, decoded]
      rfl
  | ok header =>
      obtain ⟨segments, -, loaded⟩ := load_of_shows files config name path? shows decoded
      rw [loaded]
      rfl

theorem isSome_readLinkage?_iff {layout : Layout} {segments : List Segment} :
    (readLinkage? space layout segments).isSome ↔
      ∃ segment, segments.find? (·.kind = .dynamic) = some segment ∧
        (space.readTable (space.normalize segment.vaddr)
          (if space.isMapped then segment.memSize else segment.fileSize)).isOk := by
  unfold readLinkage?
  cases segments.find? (·.kind = .dynamic) with
  | none => simp
  | some segment =>
      simp only [bind, Option.bind_some, Option.some.injEq, exists_eq_left', isSome_toOption]
      exact Linkage.isOk_read_iff _ layout _ _

theorem holdsReadable_of_load {image : Image} (shows : space.Shows bytes)
    (loaded : load files config space name path? = .ok image) : image.HoldsReadable files := by
  obtain ⟨head, header, segments, front, decoded, listed, rfl⟩ := exists_of_load loaded
  obtain ⟨-, -, -, sound⟩ := FileHeader.decode_eq_ok_iff.mp decoded
  obtain ⟨others, again, length⟩ := exists_readSegments shows sound
  obtain rfl : segments = others := Except.ok.inj (listed.symm.trans again)
  let source : ImageSource := ⟨space.withSegments segments, files, path?⟩
  have told : (source.staticSymbols header.layout (source.sections header)).2.map Section.told =
      (source.sections header).map Section.told := ImageSource.told_staticSymbols header.layout
  constructor
  case segments =>
    change segments.length = if header.segmentOffset ≠ 0 ∧
      (space.withSegments segments).isResident header.segmentOffset header.segmentTableSize then _
      else _
    rw [AddressSpace.isResident_withSegments]
    exact length
  case linkage => exact isSome_readLinkage?_iff
  case strings =>
    intro linkage read
    obtain ⟨_, _, _, rfl⟩ := exists_ofEntries_of_readLinkage? read
    exact AddressSpace.isSome_tableAt?_iff
  case symbols =>
    intro linkage read
    obtain ⟨_, _, _, rfl⟩ := exists_ofEntries_of_readLinkage? read
    exact DynamicSymbols.isSome_symbols?_locate
  case sections =>
    have counted := congrArg List.length told
    rw [List.length_map, List.length_map, source.length_sections,
      ImageSource.length_sectionHeaders sound] at counted
    exact counted
  case names =>
    exact fun unnamed sec listed => ImageSource.name_of_settled header.layout unnamed listed
  case statics => exact ImageSource.isSome_staticSymbols_iff header.layout

/-- Whether bytes or a file are loaded, and with which fault they are refused, is told by no more
than the bytes that a file header can take up. What is loaded lacks nothing but what cannot be
read. -/
theorem loading_decided_by_header (files : Files) (config : Config) (bytes : Bytes) (base : UInt64)
    (path? : Option String) (fits : base.toNat + bytes.size < UInt64.size) :
    let told := FileHeader.decode (bytes.extract 0 (min maxHeaderSize.toNat bytes.size))
    told = FileHeader.decode bytes ∧
      (ofBytes files config bytes base path?).map (·.header) = told ∧
      (∀ path, files path = some bytes → bytes ≠ #[] →
        (ofFile files config path).map (·.header) = told) ∧
      ∀ image, ofBytes files config bytes base path? = .ok image ∨
          (∃ path, files path = some bytes ∧ bytes ≠ #[] ∧
            ofFile files config path = .ok image) →
        image.HoldsReadable files := by
  have placed := @AddressSpace.shows_placed base bytes config.io fits
  have filed : bytes ≠ #[] →
      (AddressSpace.file (.ofFile bytes) bytes.size.toUInt64 config.io).Shows bytes :=
    fun filled => AddressSpace.shows_file filled (Nat.lt_of_le_of_lt (Nat.le_add_left ..) fits)
  have opened : ∀ path, files path = some bytes → ofFile files config path =
      load files config (.file (.ofFile bytes) bytes.size.toUInt64 config.io) path
        (some path) := by
    intro path found
    rw [ofFile, Files.content, found]
    rfl
  dsimp only
  rw [decode_head]
  refine ⟨rfl, header_of_load files config _ path? placed, ?_, ?_⟩
  · intro path found filled
    rw [opened path found]
    exact header_of_load files config path (some path) (filed filled)
  · rintro image (loaded | ⟨path, found, filled, loaded⟩)
    · exact holdsReadable_of_load placed loaded
    · rw [opened path found] at loaded
      exact holdsReadable_of_load (filed filled) loaded

/-- A 32-bit object that is all header and one program header: its dynamic array and its section
headers are said to lie behind its end. -/
def damagedObject : Bytes :=
  let header : FileHeader :=
    { ident := ⟨.elf32, .little, 1, 0, 0⟩, typeCode := 3, machineCode := 3, version := 1, entry := 0
      segmentOffset := 52, sectionOffset := 4096, flags := 0, headerSize := 52, segmentStride := 32
      segmentCount := 1, sectionStride := 40, sectionCount := 3, nameSection := 1 }
  let segment : Segment :=
    { index := 0, typeCode := 2, flagBits := 4, offset := 8192, vaddr := 8192, paddr := 8192
      fileSize := 64, memSize := 64, align := 4 }
  (header.encode ++ segment.encode header.layout).toArray

theorem damagedObject_loading :
    let files : Files := fun path => if path = "object" then some damagedObject else none
    ∃ image opened, ofBytes files {} damagedObject 0x1000 none = .ok image ∧
      ofFile files {} "object" = .ok opened ∧ image.header = opened.header ∧
      image.segments.length = 1 ∧ image.linkage?.isSome = false ∧ image.sections.length = 0 ∧
      image.HoldsReadable files ∧ opened.HoldsReadable files := by
  intro files
  have parts : (ofBytes files {} damagedObject 0x1000 none).toOption.map (fun image =>
      (image.segments.length, image.linkage?.isSome, image.sections.length)) =
        some (1, false, 0) := by decide +kernel
  have also : (ofFile files {} "object").toOption.map (·.segments.length) = some 1 := by
    decide +kernel
  obtain ⟨image, loaded, told⟩ := exists_of_toOption_map parts
  obtain ⟨segments, rest⟩ := Prod.mk.inj told
  obtain ⟨linkage, sections⟩ := Prod.mk.inj rest
  obtain ⟨opened, read, -⟩ := exists_of_toOption_map also
  have found : files "object" = some damagedObject := rfl
  have filled : damagedObject ≠ #[] := by decide +kernel
  obtain ⟨-, placed, filed, readable⟩ := loading_decided_by_header files {} damagedObject 0x1000
    none (by decide +kernel)
  have same := filed "object" found filled
  rw [loaded] at placed
  rw [read] at same
  refine ⟨image, opened, loaded, read, Except.ok.inj (placed.trans same.symm), segments, linkage,
    sections, readable image (.inl loaded), readable opened (.inr ?_)⟩
  exact ⟨"object", found, filled, read⟩

end Image

end ElfLens
