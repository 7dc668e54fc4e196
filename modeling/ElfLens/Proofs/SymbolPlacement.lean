import ElfLens.Proofs.ReportedAddresses

set_option autoImplicit false

namespace ElfLens

theorem AddressSpace.toNat_normalize_of_lt {space : AddressSpace} {address : UInt64}
    (below : address < space.base) (fits : space.base.toNat + address.toNat < UInt64.size) :
    (space.normalize address).toNat = space.base.toNat + address.toNat := by
  unfold base at below fits ⊢
  unfold normalize domain
  rw [UInt64.lt_iff_toNat_lt] at below
  split
  · rename_i base _ _ placement
    rw [placement] at below fits
    dsimp only at below fits
    rcases AddressDomain.resolve_loaded_cases base address with ⟨-, place⟩ | ⟨above | large, -⟩
    · exact place
    · rw [UInt64.le_iff_toNat_le] at above
      omega
    · omega
  · rename_i placement
    rw [placement] at below
    exact absurd below (Nat.not_lt_zero _)

namespace SymbolView

/-- The symbol is defined in a section of its image, and its value is an address in the section. -/
structure LiesIn (view : SymbolView) (sec : Section) : Prop where
  defined : view.symbol.isDefined
  named : view.image.sections[view.symbol.sectionIndex.toNat]? = some sec
  start : sec.address ≤ view.symbol.value
  stop : view.symbol.value.toNat < sec.address.toNat + sec.byteSize.toNat
  placed : view.symbol.kind ≠ .tls

instance (view : SymbolView) (sec : Section) : Decidable (view.LiesIn sec) :=
  decidable_of_iff
    (view.symbol.isDefined ∧
      view.image.sections[view.symbol.sectionIndex.toNat]? = some sec ∧
      sec.address ≤ view.symbol.value ∧
      view.symbol.value.toNat < sec.address.toNat + sec.byteSize.toNat ∧ view.symbol.kind ≠ .tls)
    ⟨fun ⟨defined, named, start, stop, placed⟩ => ⟨defined, named, start, stop, placed⟩,
      fun lies => ⟨lies.defined, lies.named, lies.start, lies.stop, lies.placed⟩⟩

/-- As far behind the start of a section as the value of the symbol is behind the stored one. -/
def placeIn (view : SymbolView) (sec : Section) : UInt64 :=
  view.image.sectionAddress sec + (view.symbol.value - sec.address)

variable {view : SymbolView} {sec : Section}

theorem address?_of_isDefined (defined : view.symbol.isDefined)
    (shared : view.image.header.isSharedObject) :
    view.address? = Word.plus? view.image.space.base view.symbol.value := by
  have relative : view.symbol.sectionIndex ≠ SectionIndex.absolute := fun absolute =>
    Symbol.not_isDefined_of_absolute absolute defined
  have known := Symbol.not_isUndefined_of_isDefined defined
  rw [address?_of_not_isUndefined relative known, Image.place?, if_pos shared]

theorem toNat_placeIn_of_lt (start : sec.address ≤ view.symbol.value)
    (below : view.symbol.value < view.image.space.base)
    (fits : view.image.space.base.toNat + view.symbol.value.toNat < UInt64.size) :
    (view.placeIn sec).toNat = view.image.space.base.toNat + view.symbol.value.toNat := by
  have distance := UInt64.toNat_sub_of_le _ _ start
  rw [UInt64.le_iff_toNat_le] at start
  rw [UInt64.lt_iff_toNat_lt] at below
  have front : (view.image.sectionAddress sec).toNat =
      view.image.space.base.toNat + sec.address.toNat := by
    apply AddressSpace.toNat_normalize_of_lt
    · rw [UInt64.lt_iff_toNat_lt]
      omega
    · omega
  have size := Word.size_eq
  rw [placeIn, UInt64.toNat_add, front, distance]
  omega

theorem placeIn_of_base_le (start : sec.address ≤ view.symbol.value)
    (above : view.image.space.base ≤ sec.address) : view.placeIn sec = view.symbol.value := by
  have front : view.image.sectionAddress sec = sec.address :=
    AddressSpace.isFixed_of_base_le above
  have distance := UInt64.toNat_sub_of_le _ _ start
  have bound := view.symbol.value.toNat_lt
  rw [UInt64.le_iff_toNat_le] at start
  apply UInt64.toNat_inj.mp
  rw [placeIn, front, UInt64.toNat_add, distance]
  omega

/-- A symbol of a shared object that counts from the base is reported at its place in its section.
One of an object that was linked at or above the base is reported with the base added to that place,
so it is reported there only if the base is zero, as it is in a file. -/
theorem address?_of_liesIn (shared : view.image.header.isSharedObject) (lies : view.LiesIn sec)
    (side : (sec.address < view.image.space.base ∧
        view.symbol.value < view.image.space.base) ∨
      (view.image.space.base ≤ sec.address ∧ view.image.space.base ≤ view.symbol.value))
    (fits : view.symbol.value < view.image.space.base →
      view.image.space.base.toNat + view.symbol.value.toNat < UInt64.size) :
    (view.symbol.value < view.image.space.base → view.address? = some (view.placeIn sec)) ∧
      (view.image.space.base ≤ view.symbol.value →
        view.address? = Word.plus? view.image.space.base (view.placeIn sec)) ∧
      (view.address? = some (view.placeIn sec) ↔
        view.symbol.value < view.image.space.base ∨ view.image.space.base = 0) := by
  rw [address?_of_isDefined lies.defined shared]
  rcases side with ⟨-, below⟩ | ⟨above, behind⟩
  · have place : Word.plus? view.image.space.base view.symbol.value = some (view.placeIn sec) :=
      Word.plus?_eq_some_iff.mpr (toNat_placeIn_of_lt lies.start below (fits below))
    refine ⟨fun _ => place, fun behind => ?_, iff_of_true place (.inl below)⟩
    exact absurd below (UInt64.not_lt.mpr behind)
  · -- The section stays where it is, and the value of the symbol is moved by the base.
    have not_below := UInt64.not_lt.mpr behind
    rw [placeIn_of_base_le lies.start above]
    refine ⟨fun below => absurd below not_below, fun _ => rfl, ?_⟩
    rw [Word.plus?_eq_some_iff, ← UInt64.toNat_inj (b := 0), UInt64.toNat_zero]
    constructor
    · intro sum
      right
      omega
    · rintro (below | zero)
      · exact absurd below not_below
      · omega

end SymbolView

namespace Image

/-- A 32-bit shared object that was linked at an address: a header, a segment that is the whole of
it, the link-time strings and symbols, sixteen bytes of text, and the section headers. -/
def linkedObject : Bytes :=
  let layout : Layout := ⟨.elf32, .little⟩
  let header : FileHeader :=
    { ident := ⟨.elf32, .little, 1, 0, 0⟩, typeCode := 3, machineCode := 3, version := 1, entry := 0
      segmentOffset := 52, sectionOffset := 136, flags := 0, headerSize := 52, segmentStride := 32
      segmentCount := 1, sectionStride := 40, sectionCount := 4, nameSection := 0 }
  let segment : Segment :=
    { index := 0, typeCode := 1, flagBits := 5, offset := 0, vaddr := 0x40000000
      paddr := 0x40000000, fileSize := 296, memSize := 296, align := 4096 }
  let symbols := [⟨0, 0, 0, 0, 0, 0, 0⟩, Symbol.mk 1 1 0x4000007c 4 0x12 0 3]
  let headers : List SectionHeader :=
    [⟨0, 0, 0, 0, 0, 0, 0, 0, 0, 0⟩, ⟨0, 2, 0, 0, 88, 32, 2, 0, 4, 16⟩,
      ⟨0, 3, 0, 0, 84, 4, 0, 0, 1, 0⟩, ⟨0, 1, 6, 0x40000078, 120, 16, 0, 0, 4, 0⟩]
  (header.encode ++ segment.encode layout ++ [0, 97, 98, 0] ++
    symbols.flatMap (Symbol.encode layout) ++ List.replicate 16 0x90 ++
    headers.flatMap (SectionHeader.encode layout)).toArray

/-- Placed above the address that it was linked at, the object has its symbol in its section. -/
theorem linkedObject_moved :
    ∃ image ∈ (ofBytes (fun _ => none) {} linkedObject 0x50000000 none).toOption,
      ∃ view ∈ image.findStatic? "ab",
        ∃ sec ∈ view.image.sections[view.symbol.sectionIndex.toNat]?,
          view.placeIn sec = 0x9000007c ∧ view.address? = some (view.placeIn sec) := by
  have told : ∃ image ∈ (ofBytes (fun _ => none) {} linkedObject 0x50000000 none).toOption,
      ∃ view ∈ image.findStatic? "ab",
        ∃ sec ∈ view.image.sections[view.symbol.sectionIndex.toNat]?,
          view.image.header.isSharedObject ∧ view.LiesIn sec ∧
            view.image.space.base = 0x50000000 ∧ sec.address = 0x40000078 ∧
            view.symbol.value = 0x4000007c ∧ view.placeIn sec = 0x9000007c := by decide +kernel
  obtain ⟨image, loaded, view, found, sec, named, shared, lies, base, address, value, place⟩ := told
  refine ⟨image, loaded, view, found, sec, named, place, ?_⟩
  have below : view.symbol.value < view.image.space.base := by
    rw [base, value]
    decide
  refine (SymbolView.address?_of_liesIn shared lies (.inl ⟨?_, below⟩) ?_).1 below
  · rw [base, address]
    decide
  · intro _
    rw [base, value]
    decide

/-- Placed where it was linked, the object has its symbol at an address that lies in no section. -/
theorem linkedObject_in_place :
    ∃ image ∈ (ofBytes (fun _ => none) {} linkedObject 0x40000000 none).toOption,
      ∃ view ∈ image.findStatic? "ab",
        ∃ sec ∈ view.image.sections[view.symbol.sectionIndex.toNat]?,
          view.image.header.isSharedObject ∧ view.LiesIn sec ∧
            view.image.space.base ≤ sec.address ∧ view.image.space.base ≤ view.symbol.value ∧
            view.image.space.base.toNat + view.symbol.value.toNat < UInt64.size ∧
            view.placeIn sec = 0x4000007c ∧ view.address? = some 0x8000007c ∧
            view.address? ≠ some (view.placeIn sec) := by decide +kernel

end Image

end ElfLens
