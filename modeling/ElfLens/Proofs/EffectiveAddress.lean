import ElfLens.Image.SymbolView
import ElfLens.Proofs.Packing

set_option autoImplicit false

namespace ElfLens

namespace Symbol

/-- The symbol is neither defined in a section nor elsewhere, and its value is not absolute: it is a
common block, whose value is an alignment, or its section index has no meaning that is known. -/
def IsUnplaced (symbol : Symbol) : Prop :=
  ¬ symbol.isDefined ∧ ¬ symbol.isUndefined ∧ symbol.sectionIndex ≠ SectionIndex.absolute

instance (symbol : Symbol) : Decidable symbol.IsUnplaced :=
  inferInstanceAs (Decidable (_ ∧ _ ∧ _))

variable {symbol : Symbol}

theorem isUnplaced_iff :
    symbol.IsUnplaced ↔
      0xff00 ≤ symbol.sectionIndex ∧ symbol.sectionIndex ≠ SectionIndex.absolute := by
  rw [IsUnplaced, ← and_assoc, not_isDefined_and_not_isUndefined_iff]

theorem not_isDefined_of_absolute (absolute : symbol.sectionIndex = SectionIndex.absolute) :
    ¬ symbol.isDefined := by
  rw [isDefined_iff, absolute]
  decide

theorem not_isUndefined_of_absolute (absolute : symbol.sectionIndex = SectionIndex.absolute) :
    ¬ symbol.isUndefined := by
  rw [isUndefined_iff, absolute]
  decide

end Symbol

/-- The address that an image gives to a value of its own: a shared object counts from its base. -/
def Image.place? (image : Image) (value : UInt64) : Option UInt64 :=
  if image.header.isSharedObject then Word.plus? image.space.base value else some value

/-- There is a stub only if both the PLT and the GOT that belongs to it are known. -/
theorem Image.stubAddress?_eq_some_iff {image : Image} {slot stub : UInt64} :
    image.stubAddress? slot = some stub ↔
      image.pltBase ≠ 0 ∧ image.gotBase ≠ 0 ∧
        image.plt.stubAddress? slot image.gotBase image.pltBase = some stub := by
  rw [stubAddress?, Option.ite_none_left_eq_some, not_or, and_assoc]

namespace SymbolView

/-- The rules by which a symbol has an address. An absolute symbol has its value. One that is
defined in a section has the place that its image gives to its value. One that is defined elsewhere
has, if it stands for data, the slot of its name in the GOT, and otherwise the stub of its slot in
the PLT. -/
inductive HasAddress (view : SymbolView) : UInt64 → Prop where
  | absolute (told : view.symbol.sectionIndex = SectionIndex.absolute) :
      HasAddress view view.symbol.value
  | fixed (defined : view.symbol.isDefined) (unshared : ¬ view.image.header.isSharedObject) :
      HasAddress view view.symbol.value
  | moved {address : UInt64} (defined : view.symbol.isDefined)
      (shared : view.image.header.isSharedObject)
      (sum : address.toNat = view.image.space.base.toNat + view.symbol.value.toNat) :
      HasAddress view address
  | slot {linkage : Linkage} {name : String} {slot : UInt64} (undefined : view.symbol.isUndefined)
      (data : view.symbol.isData) (linked : view.image.linkage? = some linkage)
      (named : view.name = .ok name) (spelled : name ≠ "")
      (found : linkage.gotEntry? name = some slot) : HasAddress view slot
  | stub {linkage : Linkage} {name : String} {slot stub : UInt64}
      (undefined : view.symbol.isUndefined) (procedure : ¬ view.symbol.isData)
      (linked : view.image.linkage? = some linkage) (named : view.name = .ok name)
      (spelled : name ≠ "") (found : linkage.gotPltEntry? name = some slot)
      (plt : view.image.pltBase ≠ 0) (got : view.image.gotBase ≠ 0)
      (derived : view.image.plt.stubAddress? slot view.image.gotBase view.image.pltBase =
        some stub) : HasAddress view stub

variable {view : SymbolView} {address slot stub : UInt64}

/-- A symbol has a slot only by a name that can be read and is not empty. -/
theorem gotSlot?_eq_some_iff :
    view.gotSlot? = some slot ↔
      ∃ linkage name, view.image.linkage? = some linkage ∧ view.name = .ok name ∧ name ≠ "" ∧
        (if view.symbol.isData then linkage.gotEntry? name else linkage.gotPltEntry? name) =
          some slot := by
  simp only [gotSlot?, bind, Option.bind_eq_some_iff, Option.ite_none_left_eq_some,
    String.isEmpty_iff]
  constructor
  · rintro ⟨linkage, linked, name, named, spelled, found⟩
    exact ⟨linkage, name, linked, eq_ok_of_toOption named, spelled, found⟩
  · rintro ⟨linkage, name, linked, named, spelled, found⟩
    exact ⟨linkage, linked, name, by rw [named]; rfl, spelled, found⟩

/-- What is neither absolute nor undefined is reported as if it were defined in a section. -/
theorem address?_of_not_isUndefined
    (relative : view.symbol.sectionIndex ≠ SectionIndex.absolute)
    (known : ¬ view.symbol.isUndefined) :
    view.address? = view.image.place? view.symbol.value := by
  rw [address?, if_neg relative, if_neg known]
  rfl

theorem address?_of_isUndefined (undefined : view.symbol.isUndefined) :
    view.address? = if view.symbol.isData then view.gotSlot? else view.pltStub? := by
  have relative : view.symbol.sectionIndex ≠ SectionIndex.absolute := fun absolute =>
    Symbol.not_isUndefined_of_absolute absolute undefined
  rw [address?, if_neg relative, if_pos undefined]

section Rules

theorem hasAddress_iff_of_absolute
    (told : view.symbol.sectionIndex = SectionIndex.absolute) :
    view.HasAddress address ↔ address = view.symbol.value := by
  have undefined := Symbol.not_isUndefined_of_absolute told
  have defined := Symbol.not_isDefined_of_absolute told
  constructor
  · intro has
    cases has with
    | absolute => rfl
    | fixed here => exact absurd here defined
    | moved here => exact absurd here defined
    | slot elsewhere => exact absurd elsewhere undefined
    | stub elsewhere => exact absurd elsewhere undefined
  · rintro rfl
    exact .absolute told

theorem hasAddress_iff_of_isDefined (defined : view.symbol.isDefined) :
    view.HasAddress address ↔ view.image.place? view.symbol.value = some address := by
  have undefined := Symbol.not_isUndefined_of_isDefined defined
  have relative : view.symbol.sectionIndex ≠ SectionIndex.absolute := fun absolute =>
    Symbol.not_isDefined_of_absolute absolute defined
  unfold Image.place?
  constructor
  · intro has
    cases has with
    | absolute told => exact absurd told relative
    | fixed _ unshared => rw [if_neg unshared]
    | moved _ shared sum => rw [if_pos shared, Word.plus?_eq_some_iff, sum]
    | slot elsewhere => exact absurd elsewhere undefined
    | stub elsewhere => exact absurd elsewhere undefined
  · intro placed
    by_cases shared : view.image.header.isSharedObject
    · rw [if_pos shared, Word.plus?_eq_some_iff] at placed
      exact .moved defined shared placed
    · rw [if_neg shared, Option.some.injEq] at placed
      exact placed ▸ .fixed defined shared

/-- For a symbol that is defined elsewhere the rules ask for the slot if it stands for data, and for
the stub of the slot if it does not. -/
theorem hasAddress_iff_of_isUndefined (undefined : view.symbol.isUndefined) :
    view.HasAddress address ↔
      (if view.symbol.isData then view.gotSlot? else view.pltStub?) = some address := by
  have defined : ¬ view.symbol.isDefined := fun here =>
    Symbol.not_isUndefined_of_isDefined here undefined
  have relative : view.symbol.sectionIndex ≠ SectionIndex.absolute := fun absolute =>
    Symbol.not_isUndefined_of_absolute absolute undefined
  constructor
  · intro has
    cases has with
    | absolute told => exact absurd told relative
    | fixed here => exact absurd here defined
    | moved here => exact absurd here defined
    | slot _ data linked named spelled found =>
        rw [if_pos data, gotSlot?_eq_some_iff]
        exact ⟨_, _, linked, named, spelled, by rwa [if_pos data]⟩
    | @stub linkage name slot _ _ procedure linked named spelled found plt got derived =>
        have reached : view.gotSlot? = some slot :=
          gotSlot?_eq_some_iff.mpr ⟨linkage, name, linked, named, spelled, by
            rwa [if_neg procedure]⟩
        rw [if_neg procedure, pltStub?, if_neg procedure, reached, Option.bind_some]
        exact Image.stubAddress?_eq_some_iff.mpr ⟨plt, got, derived⟩
  · intro reported
    by_cases data : view.symbol.isData
    · rw [if_pos data] at reported
      obtain ⟨linkage, name, linked, named, spelled, found⟩ := gotSlot?_eq_some_iff.mp reported
      rw [if_pos data] at found
      exact .slot undefined data linked named spelled found
    · rw [if_neg data, pltStub?, if_neg data] at reported
      obtain ⟨slot, reached, derived⟩ := Option.bind_eq_some_iff.mp reported
      obtain ⟨linkage, name, linked, named, spelled, found⟩ := gotSlot?_eq_some_iff.mp reached
      obtain ⟨plt, got, derived⟩ := Image.stubAddress?_eq_some_iff.mp derived
      rw [if_neg data] at found
      exact .stub undefined data linked named spelled found plt got derived

theorem not_hasAddress_of_isUnplaced (unplaced : view.symbol.IsUnplaced) :
    ¬ view.HasAddress address := by
  obtain ⟨defined, undefined, relative⟩ := unplaced
  intro has
  cases has with
  | absolute told => exact relative told
  | fixed here => exact defined here
  | moved here => exact defined here
  | slot elsewhere => exact undefined elsewhere
  | stub elsewhere => exact undefined elsewhere

/-- The rules hold of every symbol that has a place by its section index. -/
theorem address?_eq_some_iff (placed : ¬ view.symbol.IsUnplaced) :
    view.address? = some address ↔ view.HasAddress address := by
  by_cases absolute : view.symbol.sectionIndex = SectionIndex.absolute
  · rw [hasAddress_iff_of_absolute absolute, address?, if_pos absolute, Option.some.injEq, eq_comm]
  · by_cases undefined : view.symbol.isUndefined
    · rw [hasAddress_iff_of_isUndefined undefined, address?_of_isUndefined undefined]
    · have defined : view.symbol.isDefined :=
        Classical.not_not.mp fun nowhere => placed ⟨nowhere, undefined, absolute⟩
      rw [hasAddress_iff_of_isDefined defined, address?_of_not_isUndefined absolute undefined]

end Rules

/-- A symbol is reported at the address that it has by the rules, and at none if it has none by
them, as long as its section index is one that the rules are about. One with another reserved index
has no address by the rules and is reported at the place that its image gives to its value, whatever
that value stands for; the rules hold of it only where there is no such place. -/
theorem address?_by_section_index (view : SymbolView) :
    (¬ view.symbol.IsUnplaced →
      ∀ address, view.address? = some address ↔ view.HasAddress address) ∧
    (view.symbol.IsUnplaced → (∀ address, ¬ view.HasAddress address) ∧
      view.address? = view.image.place? view.symbol.value) ∧
    (view.symbol.IsUnplaced ↔ 0xff00 ≤ view.symbol.sectionIndex ∧
      view.symbol.sectionIndex ≠ SectionIndex.absolute) ∧
    ((∀ address, view.address? = some address ↔ view.HasAddress address) ↔
      ¬ view.symbol.IsUnplaced ∨ view.image.place? view.symbol.value = none) := by
  have reported : view.symbol.IsUnplaced →
      view.address? = view.image.place? view.symbol.value := fun ⟨_, known, relative⟩ =>
    address?_of_not_isUndefined relative known
  refine ⟨fun placed _ => address?_eq_some_iff placed, ?_, Symbol.isUnplaced_iff, ?_, ?_⟩
  · intro unplaced
    exact ⟨fun _ => not_hasAddress_of_isUnplaced unplaced, reported unplaced⟩
  · intro agrees
    refine Classical.or_iff_not_imp_left.mpr fun twice => ?_
    have unplaced := Classical.not_not.mp twice
    rw [← reported unplaced, Option.eq_none_iff_forall_ne_some]
    intro address told
    exact not_hasAddress_of_isUnplaced unplaced ((agrees address).mp told)
  · rintro (placed | nowhere) address
    · exact address?_eq_some_iff placed
    · by_cases unplaced : view.symbol.IsUnplaced
      · rw [reported unplaced, nowhere]
        exact iff_of_false nofun (not_hasAddress_of_isUnplaced unplaced)
      · exact address?_eq_some_iff unplaced

end SymbolView

namespace Image

/-- A 32-bit shared object with a PLT that refers to the procedure `f` and the data `d`, has a
common block `c` and defines `g`: a header, a segment that is the dynamic array, the strings,
symbols, hash chains and relocations that the array locates, and the array itself, the section names
and headers. -/
def importingObject : Bytes :=
  let layout : Layout := ⟨.elf32, .little⟩
  let header : FileHeader :=
    { ident := ⟨.elf32, .little, 1, 0, 0⟩, typeCode := 3, machineCode := 3, version := 1, entry := 0
      segmentOffset := 52, sectionOffset := 320, flags := 0, headerSize := 52, segmentStride := 32
      segmentCount := 1, sectionStride := 40, sectionCount := 2, nameSection := 0 }
  let segment : Segment :=
    { index := 0, typeCode := 2, flagBits := 4, offset := 224, vaddr := 224, paddr := 224
      fileSize := 88, memSize := 88, align := 4 }
  let symbols := [⟨0, 0, 0, 0, 0, 0, 0⟩, Symbol.mk 1 1 0 0 0x12 0 0, ⟨2, 3, 0, 0, 0x11, 0, 0⟩,
    ⟨3, 5, 4, 8, 0x11, 0, SectionIndex.common⟩, ⟨4, 7, 0x404, 4, 0x12, 0, 1⟩]
  let hash : HashTable := ⟨#[1], #[0, 2, 3, 4, 0]⟩
  let relocations : List Relocation := [⟨0x200c, 1, 7, 0⟩, ⟨0x1ff0, 2, 6, 0⟩]
  let array : List DynamicEntry :=
    [⟨DynamicTag.strings, 84⟩, ⟨DynamicTag.stringsSize, 9⟩, ⟨DynamicTag.symbols, 96⟩,
      ⟨DynamicTag.hash, 176⟩, ⟨DynamicTag.pltRelocations, 208⟩, ⟨DynamicTag.pltRelocationSize, 8⟩,
      ⟨DynamicTag.pltRelocationKind, 17⟩, ⟨DynamicTag.rel, 216⟩, ⟨DynamicTag.relSize, 8⟩,
      ⟨DynamicTag.pltGot, 0x2000⟩]
  let headers : List SectionHeader :=
    [⟨0, 3, 0, 0, 312, 6, 0, 0, 1, 0⟩, ⟨1, 8, 6, 0x400, 0, 64, 0, 0, 4, 0⟩]
  (header.encode ++ segment.encode layout ++ [0, 102, 0, 100, 0, 99, 0, 103, 0, 0, 0, 0] ++
    symbols.flatMap (Symbol.encode layout) ++ hash.encode .little ++
    relocations.flatMap (Relocation.encode layout .rel) ++
    DynamicEntry.encodeArray layout array 0 [] ++ [0, 46, 112, 108, 116, 0, 0, 0] ++
    headers.flatMap (SectionHeader.encode layout)).toArray

theorem exists_loaded_importingObject :
    ∃ image ∈ (ofBytes (fun _ => none) {} importingObject 0x10000 none).toOption,
      (∃ f ∈ image.findDynamic? "f", ¬ f.symbol.IsUnplaced ∧ f.address? = some 0x10430) ∧
      (∃ d ∈ image.findDynamic? "d", ¬ d.symbol.IsUnplaced ∧ d.address? = some 0x11ff0) ∧
      (∃ g ∈ image.findDynamic? "g", ¬ g.symbol.IsUnplaced ∧ g.address? = some 0x10404) ∧
      ∃ c ∈ image.findDynamic? "c", c.symbol.sectionIndex = SectionIndex.common ∧
        c.symbol.IsUnplaced ∧ c.address? = some 0x10004 := by decide +kernel

/-- By the rules `f` has the stub of its slot, the fourth of the PLT, `d` has its slot and `g` its
value behind the base. -/
theorem importingObject_by_rules :
    ∃ image ∈ (ofBytes (fun _ => none) {} importingObject 0x10000 none).toOption,
      ∃ f ∈ image.findDynamic? "f", ∃ d ∈ image.findDynamic? "d", ∃ g ∈ image.findDynamic? "g",
        f.HasAddress 0x10430 ∧ d.HasAddress 0x11ff0 ∧ g.HasAddress 0x10404 := by
  obtain ⟨image, loaded, ⟨f, hasF, placedF, stub⟩, ⟨d, hasD, placedD, slot⟩,
    ⟨g, hasG, placedG, value⟩, -⟩ := exists_loaded_importingObject
  refine ⟨image, loaded, f, hasF, d, hasD, g, hasG, ?_, ?_, ?_⟩
  · exact ((SymbolView.address?_by_section_index f).1 placedF _).mp stub
  · exact ((SymbolView.address?_by_section_index d).1 placedD _).mp slot
  · exact ((SymbolView.address?_by_section_index g).1 placedG _).mp value

/-- The common block is reported at its alignment behind the base, where it has no address. -/
theorem importingObject_common_block :
    ∃ image ∈ (ofBytes (fun _ => none) {} importingObject 0x10000 none).toOption,
      ∃ c ∈ image.findDynamic? "c", c.symbol.sectionIndex = SectionIndex.common ∧
        ¬ c.symbol.isDefined ∧ ¬ c.symbol.isUndefined ∧ c.address? = some 0x10004 ∧
        ∀ address, ¬ c.HasAddress address := by
  obtain ⟨image, loaded, -, -, -, c, found, common, unplaced, reported⟩ :=
    exists_loaded_importingObject
  exact ⟨image, loaded, c, found, common, unplaced.1, unplaced.2.1, reported,
    fun _ => SymbolView.not_hasAddress_of_isUnplaced unplaced⟩

end Image
end ElfLens
