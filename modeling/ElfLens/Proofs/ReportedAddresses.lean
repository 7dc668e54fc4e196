import ElfLens.Proofs.EffectiveAddress
import ElfLens.Proofs.ImageHead
import ElfLens.Proofs.StubDerivation
import Mathlib.Data.Option.Basic

set_option autoImplicit false

namespace ElfLens

namespace AddressDomain

/-- Resolving the address leaves it as it is. -/
def IsFixed (domain : AddressDomain) (address : UInt64) : Prop := domain.resolve address = address

theorem isFixed_linked (address : UInt64) : linked.IsFixed address := rfl

/-- An address is resolved to the base plus the address, or to itself. -/
theorem resolve_loaded_cases (base address : UInt64) :
    (address < base ∧
      ((loaded base).resolve address).toNat = base.toNat + address.toNat) ∨
    ((base ≤ address ∨ UInt64.size ≤ base.toNat + address.toNat) ∧
      (loaded base).resolve address = address) := by
  rw [resolve]
  by_cases below : address < base
  · rw [if_pos below]
    cases sum : Word.plus? base address with
    | none => exact .inr ⟨.inr (Word.plus?_eq_none_iff.mp sum), rfl⟩
    | some moved => exact .inl ⟨below, Word.plus?_eq_some_iff.mp sum⟩
  · rw [if_neg below]
    exact .inr ⟨.inl (UInt64.not_lt.mp below), rfl⟩

theorem isFixed_loaded_iff {base address : UInt64} :
    (loaded base).IsFixed address ↔ base ≤ address ∨ UInt64.size ≤ base.toNat + address.toNat := by
  rcases resolve_loaded_cases base address with ⟨below, place⟩ | ⟨kept, same⟩
  · -- The base is not zero, since it lies above the address, so the sum is another address.
    have bound := ((loaded base).resolve address).toNat_lt
    have size := Word.size_eq
    rw [IsFixed, ← UInt64.toNat_inj, place, UInt64.le_iff_toNat_le]
    rw [UInt64.lt_iff_toNat_lt] at below
    omega
  · exact iff_of_true same kept

theorem isFixed_resolve (domain : AddressDomain) (address : UInt64) :
    domain.IsFixed (domain.resolve address) := by
  cases domain with
  | linked => rfl
  | loaded base =>
      rcases resolve_loaded_cases base address with ⟨below, place⟩ | ⟨kept, same⟩
      · rw [isFixed_loaded_iff, UInt64.le_iff_toNat_le]
        omega
      · rw [same]
        exact same

/-- Above a fixed address there are only fixed ones. -/
theorem IsFixed.of_le {domain : AddressDomain} {low high : UInt64} (fixed : domain.IsFixed low)
    (above : low ≤ high) : domain.IsFixed high := by
  cases domain with
  | linked => rfl
  | loaded base =>
      rw [isFixed_loaded_iff] at fixed ⊢
      rw [UInt64.le_iff_toNat_le] at above fixed ⊢
      omega

end AddressDomain

theorem AddressSpace.isFixed_of_base_le {space : AddressSpace} {address : UInt64}
    (above : space.base ≤ address) : space.domain.IsFixed address := by
  unfold domain
  unfold base at above
  split
  · rename_i placement
    rw [placement] at above
    exact AddressDomain.isFixed_loaded_iff.mpr (.inl above)
  · exact AddressDomain.isFixed_linked address

/-- No stub lies in front of the PLT. -/
theorem PltShape.le_stubAddress? {shape : PltShape} {slot gotBase pltBase stub : UInt64}
    (derived : shape.stubAddress? slot gotBase pltBase = some stub) : pltBase ≤ stub := by
  obtain ⟨-, -, place⟩ := stubAddress?_eq_some_iff.mp derived
  rw [UInt64.le_iff_toNat_le, place]
  exact Nat.le_add_right _ _

namespace DynamicEntry

theorem firstNonzero_mem {values : List UInt64} (present : firstNonzero values ≠ 0) :
    firstNonzero values ∈ values := by
  unfold firstNonzero at present ⊢
  cases found : values.find? (· ≠ 0) with
  | none =>
      rw [found] at present
      exact absurd rfl present
  | some value => exact List.mem_of_find?_eq_some found

theorem isFixed_addressOf {domain : AddressDomain} {tag : Int64} {entries : List DynamicEntry}
    (present : addressOf domain tag entries ≠ 0) :
    domain.IsFixed (addressOf domain tag entries) := by
  obtain ⟨value, -, resolved⟩ := List.mem_map.mp (firstNonzero_mem present)
  unfold addressOf
  rw [← resolved]
  exact domain.isFixed_resolve value

end DynamicEntry

namespace Linkage

/-- Every address that the dynamic array leads to is one of the running image. -/
structure IsFixed (domain : AddressDomain) (linkage : Linkage) : Prop where
  array : domain.IsFixed linkage.address
  strings : linkage.symbols.stringLocation.address ≠ 0 →
    domain.IsFixed linkage.symbols.stringLocation.address
  symbols : linkage.symbols.symbolLocation.address ≠ 0 →
    domain.IsFixed linkage.symbols.symbolLocation.address
  hash : linkage.symbols.hashAddress ≠ 0 → domain.IsFixed linkage.symbols.hashAddress
  rela : linkage.relocs.relaLocation.address ≠ 0 →
    domain.IsFixed linkage.relocs.relaLocation.address
  rel : linkage.relocs.relLocation.address ≠ 0 → domain.IsFixed linkage.relocs.relLocation.address
  plt : linkage.relocs.pltLocation.address ≠ 0 → domain.IsFixed linkage.relocs.pltLocation.address
  pltGot : linkage.relocs.pltGot ≠ 0 → domain.IsFixed linkage.relocs.pltGot
  gotEntry? : ∀ name slot, linkage.gotEntry? name = some slot → domain.IsFixed slot
  gotPltEntry? : ∀ name slot, linkage.gotPltEntry? name = some slot → domain.IsFixed slot

theorem isFixed_of_slot? {linkage : Linkage} {table? : Option RelocationTable} {name : String}
    {slot : UInt64} (found : linkage.slot? table? name = some slot) :
    linkage.domain.IsFixed slot := by
  obtain ⟨offset, -, rfl⟩ := Option.map_eq_some_iff.mp found
  exact linkage.domain.isFixed_resolve offset

theorem isFixed_ofEntries {space : AddressSpace} {layout : Layout} {address byteSize : UInt64}
    {entries : List DynamicEntry} (array : space.domain.IsFixed address) :
    (ofEntries space layout address byteSize entries).IsFixed space.domain where
  array := array
  strings := DynamicEntry.isFixed_addressOf
  symbols := DynamicEntry.isFixed_addressOf
  hash := DynamicEntry.isFixed_addressOf
  rela := DynamicEntry.isFixed_addressOf
  rel := DynamicEntry.isFixed_addressOf
  plt := DynamicEntry.isFixed_addressOf
  pltGot := DynamicEntry.isFixed_addressOf
  gotEntry? := by
    intro name slot found
    rcases (Option.orElse_eq_some _ _ _).mp found with general | ⟨-, general⟩
    · exact isFixed_of_slot? general
    · exact isFixed_of_slot? general
  gotPltEntry? := fun name slot found => isFixed_of_slot? found

end Linkage

namespace Image

/-- Every address that the image reports is one of the running image. -/
structure IsFixed (image : Image) : Prop where
  linkage? : ∀ linkage, image.linkage? = some linkage → linkage.IsFixed image.space.domain
  sectionAddress : ∀ sec, image.space.domain.IsFixed (image.sectionAddress sec)
  pltBase : image.pltBase ≠ 0 → image.space.domain.IsFixed image.pltBase
  gotBase : image.gotBase ≠ 0 → image.space.domain.IsFixed image.gotBase
  gotAddress? : ∀ name slot, image.gotAddress? name = some slot → image.space.domain.IsFixed slot
  stubAddress? : ∀ slot stub, image.stubAddress? slot = some stub → image.space.domain.IsFixed stub
  gotSlot? : ∀ source symbol slot, SymbolView.gotSlot? ⟨image, source, symbol⟩ = some slot →
    image.space.domain.IsFixed slot
  pltStub? : ∀ source symbol stub, SymbolView.pltStub? ⟨image, source, symbol⟩ = some stub →
    image.space.domain.IsFixed stub
  address? : image.header.isSharedObject → ∀ source symbol address,
    symbol.sectionIndex ≠ SectionIndex.absolute →
      SymbolView.address? ⟨image, source, symbol⟩ = some address →
        image.space.domain.IsFixed address

variable {image : Image}

theorem isFixed_sectionAddress (image : Image) (sec : Section) :
    image.space.domain.IsFixed (image.sectionAddress sec) :=
  image.space.domain.isFixed_resolve sec.address

theorem isFixed_sectionBase {name : String} (present : image.sectionBase name ≠ 0) :
    image.space.domain.IsFixed (image.sectionBase name) := by
  unfold sectionBase at present ⊢
  cases found : image.findSection? name with
  | none =>
      rw [found] at present
      exact absurd rfl present
  | some sec => exact image.isFixed_sectionAddress sec

section Linked

variable (linked : ∀ linkage, image.linkage? = some linkage → linkage.IsFixed image.space.domain)
include linked

theorem isFixed_gotBase (present : image.gotBase ≠ 0) :
    image.space.domain.IsFixed image.gotBase := by
  unfold gotBase at present ⊢
  dsimp only at present ⊢
  by_cases untold : (image.linkage?.map (·.relocs.pltGot)).getD 0 = 0
  · rw [if_pos untold] at present ⊢
    exact isFixed_sectionBase present
  · rw [if_neg untold] at present ⊢
    cases given : image.linkage? with
    | none =>
        rw [given] at present
        exact absurd rfl present
    | some linkage =>
        rw [given] at present
        exact (linked linkage given).pltGot present

theorem isFixed_gotAddress? {name : String} {slot : UInt64}
    (found : image.gotAddress? name = some slot) : image.space.domain.IsFixed slot := by
  obtain ⟨linkage, given, either⟩ := Option.bind_eq_some_iff.mp found
  have told := linked linkage given
  rcases (Option.orElse_eq_some _ _ _).mp either with general | ⟨-, procedure⟩
  · exact told.gotEntry? name slot general
  · exact told.gotPltEntry? name slot procedure

theorem isFixed_gotSlot? {source : SymbolSource} {symbol : Symbol} {slot : UInt64}
    (found : SymbolView.gotSlot? ⟨image, source, symbol⟩ = some slot) :
    image.space.domain.IsFixed slot := by
  obtain ⟨linkage, name, given, -, -, chosen⟩ := SymbolView.gotSlot?_eq_some_iff.mp found
  have told := linked linkage given
  split at chosen
  · exact told.gotEntry? name slot chosen
  · exact told.gotPltEntry? name slot chosen

end Linked

/-- A stub lies behind the start of the PLT, which is an address of the running image itself. -/
theorem isFixed_stubAddress? {slot stub : UInt64} (derived : image.stubAddress? slot = some stub) :
    image.space.domain.IsFixed stub := by
  obtain ⟨present, -, told⟩ := stubAddress?_eq_some_iff.mp derived
  have start : image.space.domain.IsFixed image.pltBase := isFixed_sectionBase present
  exact start.of_le (PltShape.le_stubAddress? told)

theorem isFixed_pltStub? {source : SymbolSource} {symbol : Symbol} {stub : UInt64}
    (found : SymbolView.pltStub? ⟨image, source, symbol⟩ = some stub) :
    image.space.domain.IsFixed stub := by
  unfold SymbolView.pltStub? at found
  split at found
  · cases found
  · obtain ⟨slot, -, derived⟩ := Option.bind_eq_some_iff.mp found
    exact isFixed_stubAddress? derived

theorem isFixed_of_linked
    (linked : ∀ linkage, image.linkage? = some linkage → linkage.IsFixed image.space.domain) :
    image.IsFixed where
  linkage? := linked
  sectionAddress := image.isFixed_sectionAddress
  pltBase := isFixed_sectionBase
  gotBase := isFixed_gotBase linked
  gotAddress? := fun _ _ => isFixed_gotAddress? linked
  stubAddress? := fun _ _ => isFixed_stubAddress?
  gotSlot? := fun _ _ _ => isFixed_gotSlot? linked
  pltStub? := fun _ _ _ => isFixed_pltStub?
  address? := by
    intro shared source symbol address placed found
    by_cases undefined : symbol.isUndefined
    · rw [SymbolView.address?_of_isUndefined undefined] at found
      split at found
      · exact isFixed_gotSlot? linked found
      · exact isFixed_pltStub? found
    · rw [SymbolView.address?_of_not_isUndefined placed undefined, place?, if_pos shared] at found
      -- A definition lies behind the base, and so no base is added to it again.
      have place : address.toNat = image.space.base.toNat + symbol.value.toNat :=
        Word.plus?_eq_some_iff.mp found
      apply AddressSpace.isFixed_of_base_le
      rw [UInt64.le_iff_toNat_le]
      omega

theorem isFixed_of_readLinkage? {space : AddressSpace} {layout : Layout} {segments : List Segment}
    {linkage : Linkage} (read : readLinkage? space layout segments = some linkage) :
    linkage.IsFixed space.domain := by
  obtain ⟨segment, _, _, rfl⟩ := exists_ofEntries_of_readLinkage? read
  exact Linkage.isFixed_ofEntries (space.domain.isFixed_resolve segment.vaddr)

/-- Every address that an image in memory reports is left as it is when it is resolved, and so is
whatever an address is resolved to: such an address does not lie below the base, or is too large for
the base to be added. -/
theorem isFixed_of_ofMemory {files : Files} {config : Config} {memory : Memory}
    {base high : UInt64} {name : String} {path? : Option String} {image : Image}
    (loaded : ofMemory files config memory base high name path? = .ok image) :
    image.IsFixed ∧
      (∀ address, image.space.normalize (image.space.normalize address) =
        image.space.normalize address) ∧
      ∀ address, image.space.normalize address = address ↔
        base ≤ address ∨ UInt64.size ≤ base.toNat + address.toNat := by
  obtain ⟨-, header, segments, -, -, -, rfl⟩ := exists_of_load loaded
  refine ⟨?_, ?_, ?_⟩
  · apply isFixed_of_linked
    intro linkage read
    exact isFixed_of_readLinkage? read
  · intro address
    exact AddressDomain.isFixed_resolve _ address
  · intro address
    have domain : (assembled files config (.mapped memory base high config.io) name path? header
        segments).space.domain = .loaded base := by
      rw [assembled, AddressSpace.withSegments_mapped, AddressSpace.domain_mapped]
    rw [AddressSpace.normalize, domain]
    exact AddressDomain.isFixed_loaded_iff

/-- A 32-bit object whose sections are their names, a PLT and the GOT that belongs to it. -/
def procedureObject : Bytes :=
  let header : FileHeader :=
    { ident := ⟨.elf32, .little, 1, 0, 0⟩, typeCode := 3, machineCode := 3, version := 1, entry := 0
      segmentOffset := 0, sectionOffset := 67, flags := 0, headerSize := 52, segmentStride := 0
      segmentCount := 0, sectionStride := 40, sectionCount := 3, nameSection := 0 }
  let names := [0, 46, 112, 108, 116, 0, 46, 103, 111, 116, 46, 112, 108, 116, 0]
  let headers : List SectionHeader :=
    [⟨0, 3, 0, 0, 52, 15, 0, 0, 1, 0⟩, ⟨1, 1, 6, 0x40, 0x40, 64, 0, 0, 4, 0⟩,
      ⟨6, 1, 3, 0x2000, 0x80, 16, 0, 0, 4, 0⟩]
  (header.encode ++ names ++ headers.flatMap (SectionHeader.encode header.layout)).toArray

/-- So close to the last address the base cannot be added to the address of the GOT. -/
theorem procedureObject_isFixed :
    ∃ image, ofMemory (fun _ => none) {} (.ofBytes 0xfffffffffffff000 procedureObject)
        0xfffffffffffff000 0xfffffffffffff0bb "object" none = .ok image ∧
      image.pltBase = 0xfffffffffffff040 ∧ image.gotBase = 0x2000 ∧
      image.stubAddress? 0x2008 = some 0xfffffffffffff060 ∧ image.IsFixed := by
  have told : (ofMemory (fun _ => none) {} (.ofBytes 0xfffffffffffff000 procedureObject)
      0xfffffffffffff000 0xfffffffffffff0bb "object" none).toOption.map (fun image =>
        (image.pltBase, image.gotBase, image.stubAddress? 0x2008)) =
      some (0xfffffffffffff040, 0x2000, some 0xfffffffffffff060) := by decide +kernel
  obtain ⟨image, loaded, parts⟩ := exists_of_toOption_map told
  obtain ⟨plt, rest⟩ := Prod.mk.inj parts
  obtain ⟨got, stub⟩ := Prod.mk.inj rest
  exact ⟨image, loaded, plt, got, stub, (isFixed_of_ofMemory loaded).1⟩

end Image

end ElfLens
