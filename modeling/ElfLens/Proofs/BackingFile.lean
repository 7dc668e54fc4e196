import ElfLens.Proofs.ImageHead
import ElfLens.Proofs.SectionSource

set_option autoImplicit false

namespace ElfLens

/-- What is told of a section apart from where its bytes are. -/
def Section.told (sec : Section) : SectionHeader × Nat × String :=
  (sec.toSectionHeader, sec.index, sec.name)

theorem Section.told_settle (sec : Section) (outcome : Except Fault Bytes) :
    (sec.settle outcome).told = sec.told := by
  unfold settle
  split
  · rfl
  · split <;> rfl

theorem rel_of_map_eq {α β : Type} {f : α → β} {x y : Option α} (same : x.map f = y.map f) :
    Option.Rel (fun a b => f a = f b) x y := by
  cases x with
  | none =>
      cases y with
      | none => exact .none
      | some b => cases same
  | some a =>
      cases y with
      | none => cases same
      | some b => exact .some (Option.some.inj same)

namespace ImageSource

/-- The same is told of the sections of two images, and any two at one place give the same bytes, or
fail because the file does not have the range that the header tells. -/
structure Serves (path : String) (left right : ImageSource) (here there : List Section) :
    Prop where
  told : here.map Section.told = there.map Section.told
  bytes : ∀ (index : Nat) (a b : Section), here[index]? = some a → there[index]? = some b →
    left.sectionBytes a = right.sectionBytes b
  fault : ∀ sec ∈ there, ∀ fault, right.sectionBytes sec = .error fault →
    fault = .fileRead path sec.offset.toNat sec.byteSize.toNat

variable {path : String} {left right : ImageSource} {here there : List Section}

namespace Serves

theorem getElem? (serves : Serves path left right here there) (index : Nat) :
    Option.Rel (fun a b => a.told = b.told) here[index]? there[index]? := by
  apply rel_of_map_eq
  rw [← List.getElem?_map, ← List.getElem?_map, serves.told]

theorem length (serves : Serves path left right here there) : here.length = there.length := by
  have same := congrArg List.length serves.told
  rwa [List.length_map, List.length_map] at same

/-- The first section that is told to be so is at the same place. -/
theorem find? (serves : Serves path left right here there)
    (wanted : SectionHeader × Nat × String → Bool) :
    Option.Rel (fun a b => a.told = b.told) (here.find? fun sec => wanted sec.told)
      (there.find? fun sec => wanted sec.told) := by
  apply rel_of_map_eq
  have same := congrArg (List.find? wanted) serves.told
  rwa [List.find?_map, List.find?_map] at same

/-- Reading a section for good gives the same, and leaves the sections serving the same. -/
theorem keep (serves : Serves path left right here there) (index : Nat) :
    (left.keep here index).1 = (right.keep there index).1 ∧
      Serves path left right (left.keep here index).2 (right.keep there index).2 := by
  have place := serves.getElem? index
  have bytes := serves.bytes index
  unfold ImageSource.keep
  generalize here[index]? = first, there[index]? = second at place bytes
  cases place with
  | none => exact ⟨rfl, serves⟩
  | @some a b told =>
      have outcome := bytes a b rfl rfl
      dsimp only
      refine ⟨by rw [outcome], ?_, ?_, ?_⟩
      · rw [List.map_set, List.map_set, Section.told_settle, Section.told_settle, told,
          serves.told]
      · intro position x y stands stands'
        rw [List.getElem?_set] at stands stands'
        by_cases settled : index = position
        · rw [if_pos settled] at stands stands'
          split at stands
          · split at stands'
            · obtain rfl := Option.some.inj stands
              obtain rfl := Option.some.inj stands'
              rw [sectionBytes_settle, sectionBytes_settle, outcome]
            · cases stands'
          · cases stands
        · rw [if_neg settled] at stands stands'
          exact serves.bytes position x y stands stands'
      · intro sec listed fault failed
        rcases List.mem_or_eq_of_mem_set listed with before | rfl
        · exact serves.fault sec before fault failed
        · rw [sectionBytes_settle] at failed
          cases failed

/-- The link-time symbols are the same, and the sections that remain serve the same. -/
theorem staticSymbols (serves : Serves path left right here there) (layout : Layout) :
    (left.staticSymbols layout here).1 = (right.staticSymbols layout there).1 ∧
      Serves path left right (left.staticSymbols layout here).2
        (right.staticSymbols layout there).2 := by
  have tables : Option.Rel (fun a b => a.told = b.told) (here.find? (·.kind = .symTab))
      (there.find? (·.kind = .symTab)) := serves.find? fun told => told.1.kind = .symTab
  unfold ImageSource.staticSymbols
  generalize here.find? (·.kind = .symTab) = first, there.find? (·.kind = .symTab) = second
    at tables
  cases tables with
  | none => exact ⟨rfl, serves⟩
  | @some a b told =>
      have header : a.toSectionHeader = b.toSectionHeader := congrArg Prod.fst told
      have index : a.index = b.index := congrArg (fun told => told.2.1) told
      dsimp only
      rw [header, index, serves.length]
      by_cases outside : there.length ≤ b.link.toNat
      · rw [if_pos outside, if_pos outside]
        exact ⟨rfl, serves⟩
      · rw [if_neg outside, if_neg outside]
        have symbols := serves.keep b.index
        generalize left.keep here b.index = x, right.keep there b.index = y at symbols
        obtain ⟨read, rest⟩ := x
        obtain ⟨also, rest'⟩ := y
        obtain ⟨same, serves⟩ := symbols
        obtain rfl : read = also := same
        cases read with
        | none => exact ⟨rfl, serves⟩
        | some bytes =>
            have strings := keep serves b.link.toNat
            dsimp only at strings ⊢
            generalize left.keep rest b.link.toNat = x, right.keep rest' b.link.toNat = y
              at strings
            obtain ⟨read, last⟩ := x
            obtain ⟨also, last'⟩ := y
            obtain ⟨same, serves⟩ := strings
            obtain rfl : read = also := same
            cases read with
            | none => exact ⟨rfl, serves⟩
            | some strings =>
                dsimp only
                split <;> exact ⟨rfl, serves⟩

end Serves

/-- Sections that have not been read yet serve the same, if every range gives the same. -/
theorem serves_sections (path : String) (same : left.readRange = right.readRange)
    (left_backed : left.path?.isSome) (right_backed : right.path?.isSome)
    (faults : ∀ offset length fault, right.readRange offset length = .error fault →
      fault = .fileRead path offset.toNat length.toNat) (header : FileHeader) :
    Serves path left right (left.sections header) (right.sections header) := by
  unfold sections
  dsimp only
  rw [sectionHeaders_congr same, sectionNames?_congr same]
  refine ⟨?_, ?_, ?_⟩
  · rw [List.map_map, List.map_map]
    rfl
  · intro index a b stands stands'
    rw [List.getElem?_map] at stands stands'
    obtain ⟨pair, found, rfl⟩ := Option.map_eq_some_iff.mp stands
    obtain ⟨other, also, rfl⟩ := Option.map_eq_some_iff.mp stands'
    obtain rfl : pair = other := Option.some.inj (found.symm.trans also)
    rw [sectionBytes_of_unread left_backed rfl, sectionBytes_of_unread right_backed rfl, same]
  · intro sec listed fault failed
    obtain ⟨pair, -, rfl⟩ := List.mem_map.mp listed
    rw [sectionBytes_of_unread right_backed rfl] at failed
    split at failed
    · cases failed
    · exact faults _ _ _ failed

/-- A range of file offsets gives that part of the file, whether it lies in the image or not. -/
theorem readRange_placed_front {files : Files} {content : Bytes} {base : UInt64} {limits : Limits}
    (backed : files path = some content) (fits : base.toNat + content.size < UInt64.size)
    (allowed : content.size ≤ limits.fetchBytes.toNat) (cut : Nat) (offset length : UInt64) :
    (ImageSource.mk (.placed base (content.extract 0 cut) limits) files (some path)).readRange
        offset length =
      match content.slice? offset.toNat length.toNat with
      | some part => .ok part
      | none => .error (.fileRead path offset.toNat length.toNat) := by
  have size : (content.extract 0 cut).size = min cut content.size := by
    rw [Array.size_extract, Nat.sub_zero]
  have front_fits : base.toNat + (content.extract 0 cut).size < UInt64.size := by omega
  rw [readRange, AddressSpace.isResident_placed front_fits]
  by_cases inside : offset.toNat + length.toNat ≤ (content.extract 0 cut).size
  · have sliced : content.slice? offset.toNat length.toNat =
        some (content.extract offset.toNat (offset.toNat + length.toNat)) :=
      Bytes.slice?_eq_some_iff.mpr ⟨by omega, rfl⟩
    have resident : Bytes.slice? (content.extract 0 cut) offset.toNat length.toNat =
        some (content.extract offset.toNat (offset.toNat + length.toNat)) := by
      apply Bytes.slice?_eq_some_iff.mpr
      refine ⟨inside, ?_⟩
      rw [Array.extract_extract, Nat.zero_add, Nat.zero_add, Nat.min_eq_left (by omega)]
    rw [if_pos (by simpa using inside), AddressSpace.readImage_placed front_fits, resident, sliced]
  · rw [if_neg (by simpa using inside)]
    change files.fetch limits path offset length = _
    unfold Files.fetch
    rw [backed, Option.bind_some]
    cases sliced : content.slice? offset.toNat length.toNat with
    | none => rfl
    | some part =>
        have bound := (Bytes.slice?_eq_some_iff.mp sliced).1
        have short : length ≤ limits.fetchBytes := by
          rw [UInt64.le_iff_toNat_le]
          omega
        exact if_pos ⟨short, by omega⟩

end ImageSource

namespace Image

theorem source_assembled (files : Files) (config : Config) (base : UInt64) (bytes : Bytes)
    (name : String) (path? : Option String) (header : FileHeader) (segments : List Segment) :
    (assembled files config (.placed base bytes config.io) name path? header segments).source
      files = ⟨.placed base bytes config.io, files, path?⟩ := by
  have same : (AddressSpace.placed base bytes config.io).withSegments segments =
      .placed base bytes config.io := AddressSpace.withSegments_mapped _ _ _ _ _
  unfold assembled source
  rw [same]

/-- The sections and the link-time symbols are made from the source, whatever the segments are. -/
theorem statics_assembled (files : Files) (config : Config) (base : UInt64) (bytes : Bytes)
    (name : String) (path? : Option String) (header : FileHeader) (segments : List Segment) :
    let image := assembled files config (.placed base bytes config.io) name path? header segments
    let source : ImageSource := ⟨.placed base bytes config.io, files, path?⟩
    (image.statics?, image.sections) =
      source.staticSymbols header.layout (source.sections header) := by
  dsimp only
  rw [← source_assembled files config base bytes name path? header segments]
  rfl

theorem sectionBase_congr {left right : Image} {files : Files} {path : String}
    (serves : ImageSource.Serves path (left.source files) (right.source files) left.sections
      right.sections) (domain : left.space.domain = right.space.domain) (name : String) :
    left.sectionBase name = right.sectionBase name := by
  have found : Option.Rel (fun a b => a.told = b.told) (left.findSection? name)
      (right.findSection? name) := serves.find? fun told => told.2.2 = name
  unfold sectionBase
  generalize left.findSection? name = first, right.findSection? name = second at found
  cases found with
  | none => rfl
  | @some a b told =>
      have header : a.toSectionHeader = b.toSectionHeader := congrArg Prod.fst told
      simp only [Option.map_some, Option.getD_some, sectionAddress, AddressSpace.normalize, domain,
        header]

/-- The part of a file in front of a cut serves what the whole file serves. -/
theorem serves_assembled (files : Files) (config : Config) {path : String} {content : Bytes}
    {base : UInt64} (backed : files path = some content)
    (fits : base.toNat + content.size < UInt64.size)
    (allowed : content.size ≤ config.io.fetchBytes.toNat) (cut : Nat) (name : String)
    (header : FileHeader) (segments others : List Segment) :
    let part := assembled files config (.placed base (content.extract 0 cut) config.io) name
      (some path) header segments
    let whole := assembled files config (.placed base content config.io) name (some path) header
      others
    part.statics? = whole.statics? ∧ ImageSource.Serves path (part.source files)
      (whole.source files) part.sections whole.sections := by
  have whole_reads := ImageSource.readRange_placed_front backed fits allowed content.size
  rw [Array.extract_size] at whole_reads
  have reads : ImageSource.readRange ⟨.placed base (content.extract 0 cut) config.io, files,
      some path⟩ = ImageSource.readRange ⟨.placed base content config.io, files, some path⟩ := by
    funext offset length
    rw [ImageSource.readRange_placed_front backed fits allowed cut, whole_reads]
  have fresh := ImageSource.serves_sections path reads rfl rfl (by
    intro offset length fault failed
    rw [whole_reads] at failed
    split at failed
    · cases failed
    · exact (Except.error.inj failed).symm) header
  obtain ⟨statics, serves⟩ := fresh.staticSymbols header.layout
  have part_parts := Prod.mk.inj (statics_assembled files config base (content.extract 0 cut)
    name (some path) header segments)
  have whole_parts := Prod.mk.inj (statics_assembled files config base content name (some path)
    header others)
  dsimp only
  rw [source_assembled, source_assembled, part_parts.1, part_parts.2, whole_parts.1,
    whole_parts.2]
  exact ⟨statics, serves⟩

/-- However much of a file behind its header is cut off, as long as the file is there to be read,
what is left is an image with the sections, the PLT, the section contents and the link-time symbols
of the whole file. -/
theorem ofBytes_extract (files : Files) (config : Config) {path : String} {content : Bytes}
    {header : FileHeader} {base : UInt64} {cut : Nat}
    (decoded : FileHeader.decode content = .ok header) (backed : files path = some content)
    (fits : base.toNat + content.size < UInt64.size)
    (allowed : content.size ≤ config.io.fetchBytes.toNat)
    (headed : header.layout.headerSize ≤ cut) :
    ∃ part whole, ofBytes files config (content.extract 0 cut) base (some path) = .ok part ∧
      ofBytes files config content base (some path) = .ok whole ∧
      part.name = whole.name ∧ part.header = whole.header ∧
      part.sections.map Section.told = whole.sections.map Section.told ∧
      part.pltBase = whole.pltBase ∧
      (∀ (index : Nat) (cut_sec sec : Section), part.sections[index]? = some cut_sec →
        whole.sections[index]? = some sec →
        part.sectionBytes files cut_sec = whole.sectionBytes files sec ∧
        ∀ fault, whole.sectionBytes files sec = .error fault →
          fault = .fileRead path sec.offset.toNat sec.byteSize.toNat) ∧
      part.statics? = whole.statics? ∧
      ∀ name, (part.findStatic? name).map (·.symbol) = (whole.findStatic? name).map (·.symbol) := by
  have front_fits : base.toNat + (content.extract 0 cut).size < UInt64.size := by
    rw [Array.size_extract]
    omega
  obtain ⟨segments, part_loaded⟩ := exists_ofBytes files config (some path)
    (FileHeader.decode_extract decoded headed) front_fits
  obtain ⟨others, whole_loaded⟩ := exists_ofBytes files config (some path) decoded fits
  obtain ⟨statics, serves⟩ := serves_assembled files config backed fits allowed cut
    ((some path).getD (anonymousName base)) header segments others
  refine ⟨_, _, part_loaded, whole_loaded, rfl, rfl, serves.told, ?_, ?_, statics,
    findStatic?_congr statics⟩
  · apply sectionBase_congr serves
    change (AddressSpace.withSegments _ _).domain = (AddressSpace.withSegments _ _).domain
    simp only [AddressSpace.placed, AddressSpace.withSegments_mapped, AddressSpace.domain_mapped]
  · intro index cut_sec sec stands stands'
    refine ⟨serves.bytes index cut_sec sec stands stands', ?_⟩
    exact serves.fault sec (List.mem_of_getElem? stands')

/-- The file header of a 32-bit object with four sections. -/
def fourSectionHeader : FileHeader :=
  { ident := ⟨.elf32, .little, 1, 0, 0⟩, typeCode := 3, machineCode := 3, version := 1, entry := 0
    segmentOffset := 0, sectionOffset := 94, flags := 0, headerSize := 52, segmentStride := 0
    segmentCount := 0, sectionStride := 40, sectionCount := 4, nameSection := 2 }

/-- The object: its link-time strings and symbols, the names of its sections, and the headers of
these and of a PLT that lies outside the file. -/
def fourSectionObject : Bytes :=
  let layout := fourSectionHeader.layout
  let symbols := [⟨0, 0, 0, 0, 0, 0, 0⟩, Symbol.mk 1 1 0x10 4 0x12 0 7]
  let headers : List SectionHeader :=
    [⟨0, 2, 0, 0, 56, 32, 1, 0, 4, 16⟩, ⟨0, 3, 0, 0, 52, 4, 0, 0, 1, 0⟩,
      ⟨0, 3, 0, 0, 88, 6, 0, 0, 1, 0⟩, ⟨1, 1, 6, 0x40, 200, 1000, 0, 0, 4, 0⟩]
  (fourSectionHeader.encode ++ [0, 97, 98, 0] ++ symbols.flatMap (Symbol.encode layout) ++
    [0, 46, 112, 108, 116, 0] ++ headers.flatMap (SectionHeader.encode layout)).toArray

theorem fourSectionObject_extract :
    let files : Files := fun path => if path = "object" then some fourSectionObject else none
    ∃ part whole,
      ofBytes files {} (fourSectionObject.extract 0 52) 0x1000 (some "object") = .ok part ∧
      ofBytes files {} fourSectionObject 0x1000 (some "object") = .ok whole ∧
      part.pltBase = whole.pltBase ∧ part.statics? = whole.statics? := by
  intro files
  have decoded : FileHeader.decode fourSectionObject = .ok fourSectionHeader := by
    have told : (FileHeader.decode fourSectionObject).toOption = some fourSectionHeader := by
      decide +kernel
    cases outcome : FileHeader.decode fourSectionObject with
    | error fault =>
        rw [outcome] at told
        cases told
    | ok header =>
        rw [outcome] at told
        rw [Option.some.inj told]
  obtain ⟨part, whole, part_loaded, whole_loaded, -, -, -, plt, -, statics, -⟩ :=
    ofBytes_extract files {} decoded (show files "object" = some fourSectionObject from rfl)
      (show (0x1000 : UInt64).toNat + fourSectionObject.size < UInt64.size by decide +kernel)
      (by decide +kernel) (show fourSectionHeader.layout.headerSize ≤ 52 by decide)
  exact ⟨part, whole, part_loaded, whole_loaded, plt, statics⟩

end Image

end ElfLens
