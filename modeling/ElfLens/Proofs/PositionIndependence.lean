import ElfLens.Proofs.DisplacedImage
import ElfLens.Proofs.ImageHead

set_option autoImplicit false

namespace ElfLens.Image

variable {near far : UInt64} {bytes : Bytes}

/-- In memory the dynamic array is as long as the memory that its segment takes up. -/
theorem readLinkage?_placed (base : UInt64) (limits : Limits) (layout : Layout)
    (segments : List Segment) :
    readLinkage? (.placed base bytes limits) layout segments =
      (segments.find? (·.kind = .dynamic)).bind fun segment =>
        let space := AddressSpace.placed base bytes limits
        let address := space.normalize segment.vaddr
        (space.readTable address segment.memSize).toOption.map fun array =>
          .ofEntries space layout address segment.memSize
            (DynamicEntry.decodeArray layout array) := by
  unfold readLinkage?
  cases segments.find? (·.kind = .dynamic) with
  | none => rfl
  | some segment =>
      have mapped : (AddressSpace.placed base bytes limits).isMapped = true :=
        AddressSpace.isMapped_mapped _ _ _ _
      simp only [Option.bind_eq_bind, Option.bind_some, mapped, ↓reduceIte, Linkage.read]
      cases (AddressSpace.placed base bytes limits).readTable
        ((AddressSpace.placed base bytes limits).normalize segment.vaddr) segment.memSize <;> rfl

/-- The dynamic array is the same at both bases, or there is none. -/
theorem readLinkage?_displaced {limits : Limits} (layout : Layout) (segments : List Segment)
    (first : ∀ segment, segments.find? (·.kind = .dynamic) = some segment →
      IsRelativeTo near segment.vaddr ∧ IsRelativeTo far segment.vaddr)
    (stored : ∀ linkage,
      readLinkage? (.placed near bytes limits) layout segments = some linkage →
        ∀ address ∈ linkage.storedAddresses,
          IsRelativeTo near address ∧ IsRelativeTo far address) :
    Option.Rel (Linkage.IsDisplaced near far)
      (readLinkage? (.placed near bytes limits) layout segments)
      (readLinkage? (.placed far bytes limits) layout segments) := by
  rw [readLinkage?_placed] at stored
  rw [readLinkage?_placed, readLinkage?_placed]
  cases found : segments.find? (·.kind = .dynamic) with
  | none => exact .none
  | some segment =>
      obtain ⟨here, there⟩ := first segment found
      have follows := @AddressSpace.follows_placed near far bytes limits
      have same := @AddressSpace.readTable_relative near far bytes limits _ here there
        segment.memSize
      simp only [found, Option.bind_some] at stored ⊢
      rw [← same]
      cases taken : ((AddressSpace.placed near bytes limits).readTable
        ((AddressSpace.placed near bytes limits).normalize segment.vaddr)
          segment.memSize).toOption with
      | none => exact .none
      | some array =>
          have relative := stored _ (by rw [taken]; rfl)
          apply Option.Rel.some
          apply Linkage.isDisplaced_ofEntries layout segment.memSize (follows here there).moved
          · intro value listed
            obtain ⟨near_value, far_value⟩ := relative value (List.mem_append_left _ listed)
            exact follows near_value far_value
          · intro table given relocation held
            obtain ⟨near_slot, far_slot⟩ := relative relocation.offset
              (List.mem_append_right _ (List.mem_flatMap.mpr
                ⟨table, given, List.mem_map.mpr ⟨relocation, held, rfl⟩⟩))
            exact (follows near_slot far_slot).moved

/-- What is put together at the two bases from one header and its segments is a copy. -/
theorem isCopy_assembled (files : Files) (config : Config) (path? : Option String)
    (header : FileHeader) (segments : List Segment) {name name' : String}
    (near_fits : near.toNat + bytes.size < UInt64.size)
    (far_fits : far.toNat + bytes.size < UInt64.size)
    (relative : ∀ address ∈ (assembled files config (.placed near bytes config.io) name path? header
      segments).storedAddresses, IsRelativeTo near address ∧ IsRelativeTo far address) :
    IsCopy near far bytes config.io
      (assembled files config (.placed near bytes config.io) name path? header segments)
      (assembled files config (.placed far bytes config.io) name' path? header segments) := by
  have here_space : (AddressSpace.placed near bytes config.io).withSegments segments =
      .placed near bytes config.io := AddressSpace.withSegments_mapped _ _ _ _ _
  have there_space : (AddressSpace.placed far bytes config.io).withSegments segments =
      .placed far bytes config.io := AddressSpace.withSegments_mapped _ _ _ _ _
  have agree : ImageSource.Agrees ⟨.placed near bytes config.io, files, path?⟩
      ⟨.placed far bytes config.io, files, path?⟩ := by
    refine ⟨?_, ?_, ?_, rfl⟩
    · exact AddressSpace.isResident_congr near_fits far_fits
    · exact AddressSpace.readImage_congr near_fits far_fits
    · rfl
  have statics := agree.staticSymbols
  have sections := agree.sections
  unfold assembled at relative ⊢
  simp only [here_space, there_space, statics, sections] at relative ⊢
  refine ⟨near_fits, far_fits, rfl, rfl, rfl, rfl, rfl, rfl, rfl, rfl, ?_, relative⟩
  apply readLinkage?_displaced
  · intro segment found
    apply relative
    simp [storedAddresses, findSegment?, found]
  · intro linkage read address listed
    apply relative
    simp [storedAddresses, read, listed]

/-- Bytes are an image at both bases or at neither, for the same reason; and where every address
that the tables hold is one relative to either base, the two images are the same, except that every
address they give is moved by the distance between the bases. -/
theorem ofBytes_displaced (files : Files) (config : Config) (bytes : Bytes) (path? : Option String)
    {near far : UInt64} (near_fits : near.toNat + bytes.size < UInt64.size)
    (far_fits : far.toNat + bytes.size < UInt64.size)
    (relative : ∀ image, ofBytes files config bytes near path? = .ok image →
      ∀ address ∈ image.storedAddresses, IsRelativeTo near address ∧ IsRelativeTo far address) :
    (∃ fault, ofBytes files config bytes near path? = .error fault ∧
      ofBytes files config bytes far path? = .error fault) ∨
    ∃ left right, ofBytes files config bytes near path? = .ok left ∧
      ofBytes files config bytes far path? = .ok right ∧
      left.IsDisplaced files near far right := by
  have length : (AddressSpace.placed near bytes config.io).length =
      (AddressSpace.placed far bytes config.io).length := by
    apply UInt64.toNat_inj.mp
    rw [AddressSpace.toNat_length_placed near_fits, AddressSpace.toNat_length_placed far_fits]
  have residents := @AddressSpace.isResident_congr near far bytes config.io near_fits far_fits
  have reads := @AddressSpace.readImage_congr near far bytes config.io near_fits far_fits
  have told : readSegments (.placed near bytes config.io) =
      readSegments (.placed far bytes config.io) := by
    funext header
    unfold readSegments
    rw [residents, reads]
  change ∀ image, load files config (.placed near bytes config.io)
    (path?.getD (anonymousName near)) path? = .ok image → _ at relative
  change (∃ fault, load files config (.placed near bytes config.io)
    (path?.getD (anonymousName near)) path? = .error fault ∧
      load files config (.placed far bytes config.io)
        (path?.getD (anonymousName far)) path? = .error fault) ∨
    ∃ left right, load files config (.placed near bytes config.io)
      (path?.getD (anonymousName near)) path? = .ok left ∧
        load files config (.placed far bytes config.io)
          (path?.getD (anonymousName far)) path? = .ok right ∧ _
  rw [load_eq, length, reads, told] at relative ⊢
  rw [load_eq]
  cases front : (AddressSpace.placed far bytes config.io).readImage 0
      (min maxHeaderSize (AddressSpace.placed far bytes config.io).length) with
  | error fault => exact .inl ⟨fault, by rfl, by rfl⟩
  | ok head =>
      cases decoded : FileHeader.decode head with
      | error fault => exact .inl ⟨fault, by simp [bind, Except.bind, decoded]⟩
      | ok header =>
          cases listed : readSegments (.placed far bytes config.io) header with
          | error fault => exact .inl ⟨fault, by simp [bind, Except.bind, decoded, listed]⟩
          | ok segments =>
              simp only [bind, Except.bind, front, decoded, listed] at relative ⊢
              refine .inr ⟨_, _, rfl, rfl, ?_⟩
              exact (isCopy_assembled files config path? header segments near_fits far_fits
                (relative _ rfl)).isDisplaced files

/-- A 32-bit shared object: a header, the segment of the dynamic array, that array, and the strings,
symbols and hash chains that it locates. -/
def oneSymbolObject : Bytes :=
  let layout : Layout := ⟨.elf32, .little⟩
  let header : FileHeader :=
    { ident := ⟨.elf32, .little, 1, 0, 0⟩, typeCode := 3, machineCode := 3, version := 1, entry := 0
      segmentOffset := 52, sectionOffset := 0, flags := 0, headerSize := 52, segmentStride := 32
      segmentCount := 1, sectionStride := 0, sectionCount := 0, nameSection := 0 }
  let segment : Segment :=
    { index := 0, typeCode := 2, flagBits := 4, offset := 84, vaddr := 84, paddr := 84
      fileSize := 40, memSize := 40, align := 4 }
  let array := DynamicEntry.mk DynamicTag.strings 124 :: ⟨DynamicTag.stringsSize, 4⟩ ::
    ⟨DynamicTag.symbols, 128⟩ :: ⟨DynamicTag.hash, 160⟩ :: [⟨DynamicTag.null, 0⟩]
  let symbols := [⟨0, 0, 0, 0, 0, 0, 0⟩, Symbol.mk 1 1 0x10 4 0x12 0 7]
  let hash := [1, 2, 1, 0, 0].flatMap fun (word : UInt8) => [word, 0, 0, 0]
  (header.encode ++ segment.encode layout ++ array.flatMap (DynamicEntry.encode layout) ++
    [0, 97, 98, 0] ++ symbols.flatMap (Symbol.encode layout) ++ hash).toArray

theorem oneSymbolObject_displaced :
    ∃ left right, ofBytes (fun _ => none) {} oneSymbolObject 0x1000 none = .ok left ∧
      ofBytes (fun _ => none) {} oneSymbolObject 0x7f0000001000 none = .ok right ∧
      left.IsDisplaced (fun _ => none) 0x1000 0x7f0000001000 right := by
  have stored : (ofBytes (fun _ => none) {} oneSymbolObject 0x1000 none).toOption.map
      storedAddresses = some [84, 124, 128, 160] := by decide +kernel
  have relative : [84, 124, 128, 160].all (fun address =>
      decide (IsRelativeTo 0x1000 address ∧ IsRelativeTo 0x7f0000001000 address)) = true := by
    decide +kernel
  rcases ofBytes_displaced (fun _ => none) {} oneSymbolObject none
    (show (0x1000 : UInt64).toNat + oneSymbolObject.size < UInt64.size by decide +kernel)
    (show (0x7f0000001000 : UInt64).toNat + oneSymbolObject.size < UInt64.size by decide +kernel)
    (by
      intro image loaded address listed
      rw [loaded] at stored
      rw [Option.some.inj stored] at listed
      exact of_decide_eq_true (List.all_eq_true.mp relative address listed))
    with ⟨fault, failed, -⟩ | displaced
  · rw [failed] at stored
    cases stored
  · exact displaced

end ElfLens.Image
