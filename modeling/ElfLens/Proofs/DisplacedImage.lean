import ElfLens.Proofs.Displacement
import ElfLens.Proofs.EffectiveAddress
import ElfLens.Proofs.MappedSpace
import ElfLens.Proofs.SectionSource

set_option autoImplicit false

namespace ElfLens

/-- The address lies below the base, so it counts from there, and stays among the addresses. -/
def IsRelativeTo (base address : UInt64) : Prop :=
  address < base ∧ base.toNat + address.toNat < UInt64.size

instance (base address : UInt64) : Decidable (IsRelativeTo base address) :=
  inferInstanceAs (Decidable (address < base ∧ base.toNat + address.toNat < UInt64.size))

variable {near far : UInt64}

theorem IsRelativeTo.toNat_resolve {base address : UInt64} (relative : IsRelativeTo base address) :
    ((AddressDomain.loaded base).resolve address).toNat = base.toNat + address.toNat := by
  obtain ⟨below, fits⟩ := relative
  have sum : Word.plus? base address = some (base + address) := by
    rw [Word.plus?, if_pos fits]
  rw [AddressDomain.resolve, if_pos below, sum, Option.getD_some]
  exact Word.plus?_eq_some_iff.mp sum

theorem IsRelativeTo.resolve_ne_zero {base address : UInt64}
    (relative : IsRelativeTo base address) : (AddressDomain.loaded base).resolve address ≠ 0 := by
  intro zero
  have place := relative.toNat_resolve
  have below := UInt64.lt_iff_toNat_lt.mp relative.1
  rw [zero, UInt64.toNat_zero] at place
  omega

theorem isMoved_resolve {address : UInt64} (near_relative : IsRelativeTo near address)
    (far_relative : IsRelativeTo far address) :
    IsMoved near far ((AddressDomain.loaded near).resolve address)
      ((AddressDomain.loaded far).resolve address) := by
  rw [IsMoved, near_relative.toNat_resolve, far_relative.toNat_resolve]
  omega

namespace AddressSpace

variable {bytes : Bytes} {limits : Limits}

theorem normalize_placed (base address : UInt64) :
    (placed base bytes limits).normalize address = (AddressDomain.loaded base).resolve address := by
  rw [normalize, placed, domain_mapped]

/-- From a relative address on, the same bytes are read at both bases. -/
theorem readTable_relative {address : UInt64} (near_relative : IsRelativeTo near address)
    (far_relative : IsRelativeTo far address) (length : UInt64) :
    ((placed near bytes limits).readTable ((placed near bytes limits).normalize address)
        length).toOption =
      ((placed far bytes limits).readTable ((placed far bytes limits).normalize address)
        length).toOption := by
  rw [normalize_placed, normalize_placed, toOption_readTable_placed near_relative.toNat_resolve,
    toOption_readTable_placed far_relative.toNat_resolve]

theorem follows_placed {address : UInt64} (near_relative : IsRelativeTo near address)
    (far_relative : IsRelativeTo far address) :
    (placed near bytes limits).Follows (placed far bytes limits) near far address where
  moved := by
    rw [normalize_placed, normalize_placed]
    exact isMoved_resolve near_relative far_relative
  nonzero_left := by
    rw [normalize_placed]
    exact near_relative.resolve_ne_zero
  nonzero_right := by
    rw [normalize_placed]
    exact far_relative.resolve_ne_zero
  read := fun length _ => readTable_relative near_relative far_relative length

theorem isResident_congr (near_fits : near.toNat + bytes.size < UInt64.size)
    (far_fits : far.toNat + bytes.size < UInt64.size) :
    (placed near bytes limits).isResident = (placed far bytes limits).isResident := by
  funext offset length
  rw [isResident_placed near_fits, isResident_placed far_fits]

theorem readImage_congr (near_fits : near.toNat + bytes.size < UInt64.size)
    (far_fits : far.toNat + bytes.size < UInt64.size) :
    (placed near bytes limits).readImage = (placed far bytes limits).readImage := by
  funext offset length
  rw [readImage_placed near_fits, readImage_placed far_fits]

end AddressSpace

/-- The sum that gives the stub of a slot, if there is one, does not run past the last address. -/
def Image.StubFits (image : Image) (slot : UInt64) : Prop :=
  image.pltBase ≠ 0 → image.gotBase ≠ 0 →
    image.pltBase.toNat + (slot.toNat - image.gotBase.toNat) / image.plt.pointerWidth.toNat *
      image.plt.stubStride.toNat < UInt64.size

namespace SymbolView

/-- The sum that gives the stub of the symbol does not run past the last address. -/
def StubFits (view : SymbolView) : Prop :=
  view.symbol.isData = false → ∀ slot, view.gotSlot? = some slot → view.image.StubFits slot

/-- The sum that gives the address of the symbol does not run past the last address. -/
def AddressFits (view : SymbolView) : Prop :=
  if view.symbol.isUndefined then view.StubFits
  else view.image.space.base.toNat + view.symbol.value.toNat < UInt64.size

end SymbolView

namespace Image

/-- The addresses that the tables of the image hold, as they are stored. -/
def storedAddresses (image : Image) : List UInt64 :=
  ((image.findSegment? .dynamic).toList ++ (image.findSegment? .interp).toList).map (·.vaddr) ++
    (image.linkage?.map (·.storedAddresses)).getD [] ++ image.sections.map (·.address)

/-- The two images are the same, except that every address they give is a moved one. -/
structure IsDisplaced (files : Files) (near far : UInt64) (left right : Image) : Prop where
  header : left.header = right.header
  segments : left.segments = right.segments
  sections : left.sections = right.sections
  sectionBytes : ∀ sec, left.sectionBytes files sec = right.sectionBytes files sec
  interpreter? : left.interpreter? = right.interpreter?
  statics? : left.statics? = right.statics?
  linkage? : Option.Rel (Linkage.IsDisplaced near far) left.linkage? right.linkage?
  findDynamic? : ∀ name,
    (left.findDynamic? name).map (·.symbol) = (right.findDynamic? name).map (·.symbol)
  scanDynamic? : ∀ name,
    (left.scanDynamic? name).map (·.symbol) = (right.scanDynamic? name).map (·.symbol)
  findStatic? : ∀ name,
    (left.findStatic? name).map (·.symbol) = (right.findStatic? name).map (·.symbol)
  names : ∀ source symbol,
    SymbolView.name ⟨left, source, symbol⟩ = SymbolView.name ⟨right, source, symbol⟩
  sectionAddress : ∀ sec ∈ left.sections,
    IsMoved near far (left.sectionAddress sec) (right.sectionAddress sec)
  pltBase : IsMovedOrAbsent near far left.pltBase right.pltBase
  gotBase : IsMovedOrAbsent near far left.gotBase right.gotBase
  gotAddress? : ∀ name,
    Option.Rel (IsMoved near far) (left.gotAddress? name) (right.gotAddress? name)
  gotSlot? : ∀ source symbol, Option.Rel (IsMoved near far)
    (SymbolView.gotSlot? ⟨left, source, symbol⟩) (SymbolView.gotSlot? ⟨right, source, symbol⟩)
  stubAddress? : ∀ slot moved, IsMoved near far slot moved → left.StubFits slot →
    right.StubFits moved →
      Option.Rel (IsMoved near far) (left.stubAddress? slot) (right.stubAddress? moved)
  pltStub? : ∀ source symbol, SymbolView.StubFits ⟨left, source, symbol⟩ →
    SymbolView.StubFits ⟨right, source, symbol⟩ →
      Option.Rel (IsMoved near far) (SymbolView.pltStub? ⟨left, source, symbol⟩)
        (SymbolView.pltStub? ⟨right, source, symbol⟩)
  address? : ∀ source symbol, symbol.sectionIndex ≠ SectionIndex.absolute →
    left.header.isSharedObject → SymbolView.AddressFits ⟨left, source, symbol⟩ →
    SymbolView.AddressFits ⟨right, source, symbol⟩ →
      Option.Rel (IsMoved near far) (SymbolView.address? ⟨left, source, symbol⟩)
        (SymbolView.address? ⟨right, source, symbol⟩)
  absolute : ∀ source symbol, symbol.sectionIndex = SectionIndex.absolute →
    SymbolView.address? ⟨left, source, symbol⟩ = SymbolView.address? ⟨right, source, symbol⟩

/-- Two images of the same bytes that have the same parts, and of which no part but the linkage
depends on the place. -/
structure IsCopy (near far : UInt64) (bytes : Bytes) (limits : Limits) (left right : Image) :
    Prop where
  near_fits : near.toNat + bytes.size < UInt64.size
  far_fits : far.toNat + bytes.size < UInt64.size
  left_space : left.space = .placed near bytes limits
  right_space : right.space = .placed far bytes limits
  path? : left.path? = right.path?
  header : left.header = right.header
  segments : left.segments = right.segments
  sections : left.sections = right.sections
  statics? : left.statics? = right.statics?
  plt : left.plt = right.plt
  linkage? : Option.Rel (Linkage.IsDisplaced near far) left.linkage? right.linkage?
  relative : ∀ address ∈ left.storedAddresses,
    IsRelativeTo near address ∧ IsRelativeTo far address

namespace IsCopy

variable {bytes : Bytes} {limits : Limits} {left right : Image}

theorem agrees (copy : IsCopy near far bytes limits left right) (files : Files) :
    (left.source files).Agrees (right.source files) where
  isResident := by
    rw [source, source, copy.left_space, copy.right_space]
    exact AddressSpace.isResident_congr copy.near_fits copy.far_fits
  readImage := by
    rw [source, source, copy.left_space, copy.right_space]
    exact AddressSpace.readImage_congr copy.near_fits copy.far_fits
  fetch := by
    funext offset length
    unfold ImageSource.fetch source
    rw [copy.path?, copy.left_space, copy.right_space]
    rfl
  path? := copy.path?

theorem interpreter? (copy : IsCopy near far bytes limits left right) :
    left.interpreter? = right.interpreter? := by
  unfold Image.interpreter? findSegment?
  rw [← copy.segments]
  cases found : left.segments.find? (·.kind = .interp) with
  | none => rfl
  | some segment =>
      obtain ⟨here, there⟩ := copy.relative segment.vaddr (by
        simp [storedAddresses, findSegment?, found])
      have same := @AddressSpace.readTable_relative near far bytes limits _ here there
        segment.fileSize
      simp only [Option.bind_eq_bind, Option.bind_some, copy.left_space, copy.right_space, same]

theorem sectionAddress (copy : IsCopy near far bytes limits left right) (sec : Section)
    (listed : sec ∈ left.sections) :
    IsMoved near far (left.sectionAddress sec) (right.sectionAddress sec) ∧
      left.sectionAddress sec ≠ 0 ∧ right.sectionAddress sec ≠ 0 := by
  obtain ⟨here, there⟩ := copy.relative sec.address (List.mem_append_right _
    (List.mem_map.mpr ⟨sec, listed, rfl⟩))
  have followed := @AddressSpace.follows_placed near far bytes limits _ here there
  unfold Image.sectionAddress
  rw [copy.left_space, copy.right_space]
  exact ⟨followed.moved, followed.nonzero_left, followed.nonzero_right⟩

theorem sectionBase (copy : IsCopy near far bytes limits left right) (name : String) :
    IsMovedOrAbsent near far (left.sectionBase name) (right.sectionBase name) := by
  unfold Image.sectionBase findSection?
  rw [← copy.sections]
  cases found : left.sections.find? (·.name = name) with
  | none => exact .inl ⟨rfl, rfl⟩
  | some sec =>
      obtain ⟨moved, here, there⟩ := copy.sectionAddress sec (List.mem_of_find?_eq_some found)
      exact .inr ⟨here, there, moved⟩

theorem gotBase (copy : IsCopy near far bytes limits left right) :
    IsMovedOrAbsent near far left.gotBase right.gotBase := by
  have named := copy.sectionBase ".got.plt"
  unfold Image.gotBase
  have linked := copy.linkage?
  generalize left.linkage? = here, right.linkage? = there at linked
  cases linked with
  | none => exact named
  | some displaced =>
      rcases displaced.pltGot with ⟨absent, also⟩ | ⟨present, also, moved⟩
      · simp only [Option.map_some, Option.getD_some, absent, also, ↓reduceIte]
        exact named
      · simp only [Option.map_some, Option.getD_some, present, also, ↓reduceIte]
        exact .inr ⟨present, also, moved⟩

theorem gotAddress? (copy : IsCopy near far bytes limits left right) (name : String) :
    Option.Rel (IsMoved near far) (left.gotAddress? name) (right.gotAddress? name) := by
  apply rel_bind copy.linkage?
  intro _ _ displaced
  exact rel_orElse (displaced.gotEntry? name) (displaced.gotPltEntry? name)

/-- The distance into the GOT is the same, so it is the same stub of the PLT. -/
theorem stubAddress? (copy : IsCopy near far bytes limits left right) {slot moved : UInt64}
    (same : IsMoved near far slot moved) (here_fits : left.StubFits slot)
    (there_fits : right.StubFits moved) :
    Option.Rel (IsMoved near far) (left.stubAddress? slot) (right.stubAddress? moved) := by
  unfold Image.stubAddress?
  rcases copy.sectionBase ".plt" with ⟨absent, also⟩ | ⟨present, also, plt_moved⟩
  · rw [if_pos (.inl absent), if_pos (.inl also)]
    exact .none
  · rcases copy.gotBase with ⟨unknown, other⟩ | ⟨known, other, got_moved⟩
    · rw [if_pos (.inr unknown), if_pos (.inr other)]
      exact .none
    · rw [if_neg (by simp [pltBase, present, known]), if_neg (by simp [pltBase, also, other]),
        ← copy.plt]
      have there_sum := there_fits also other
      rw [← copy.plt] at there_sum
      exact left.plt.stubAddress?_moved same got_moved plt_moved (here_fits present known) there_sum

/-- A copy has all the names of the image. -/
theorem names (copy : IsCopy near far bytes limits left right) (kind : SymbolSource)
    (symbol : Symbol) :
    SymbolView.name ⟨left, kind, symbol⟩ = SymbolView.name ⟨right, kind, symbol⟩ := by
  unfold SymbolView.name
  cases kind with
  | dynamic =>
      have linked := copy.linkage?
      generalize left.linkage? = here, right.linkage? = there at linked
      cases linked with
      | none => rfl
      | some displaced => exact displaced.name symbol
  | static =>
      dsimp only
      rw [copy.statics?]

theorem gotSlot? (copy : IsCopy near far bytes limits left right) (kind : SymbolSource)
    (symbol : Symbol) :
    Option.Rel (IsMoved near far) (SymbolView.gotSlot? ⟨left, kind, symbol⟩)
      (SymbolView.gotSlot? ⟨right, kind, symbol⟩) := by
  unfold SymbolView.gotSlot?
  rw [copy.names kind symbol]
  apply rel_bind copy.linkage?
  intro _ _ displaced
  cases (SymbolView.name ⟨right, kind, symbol⟩).toOption with
  | none => exact .none
  | some name =>
      by_cases unnamed : name.isEmpty
      · simp only [Option.bind_eq_bind, Option.bind_some, unnamed, ↓reduceIte]
        exact .none
      · simp only [Option.bind_eq_bind, Option.bind_some, unnamed, Bool.false_eq_true, ↓reduceIte]
        split
        · exact displaced.gotEntry? name
        · exact displaced.gotPltEntry? name

theorem pltStub? (copy : IsCopy near far bytes limits left right) (kind : SymbolSource)
    (symbol : Symbol) (here_fits : SymbolView.StubFits ⟨left, kind, symbol⟩)
    (there_fits : SymbolView.StubFits ⟨right, kind, symbol⟩) :
    Option.Rel (IsMoved near far) (SymbolView.pltStub? ⟨left, kind, symbol⟩)
      (SymbolView.pltStub? ⟨right, kind, symbol⟩) := by
  unfold SymbolView.pltStub?
  by_cases data : symbol.isData
  · rw [if_pos data, if_pos data]
    exact .none
  · rw [if_neg data, if_neg data]
    have slots := copy.gotSlot? kind symbol
    have here_fits := here_fits (Bool.eq_false_iff.mpr data)
    have there_fits := there_fits (Bool.eq_false_iff.mpr data)
    generalize SymbolView.gotSlot? ⟨left, kind, symbol⟩ = here,
      SymbolView.gotSlot? ⟨right, kind, symbol⟩ = there at slots here_fits there_fits
    cases slots with
    | none => exact .none
    | some moved => exact copy.stubAddress? moved (here_fits _ rfl) (there_fits _ rfl)

theorem address? (copy : IsCopy near far bytes limits left right) (kind : SymbolSource)
    (symbol : Symbol) (placed : symbol.sectionIndex ≠ SectionIndex.absolute)
    (shared : left.header.isSharedObject)
    (here_fits : SymbolView.AddressFits ⟨left, kind, symbol⟩)
    (there_fits : SymbolView.AddressFits ⟨right, kind, symbol⟩) :
    Option.Rel (IsMoved near far) (SymbolView.address? ⟨left, kind, symbol⟩)
      (SymbolView.address? ⟨right, kind, symbol⟩) := by
  unfold SymbolView.AddressFits at here_fits there_fits
  by_cases undefined : symbol.isUndefined
  · simp only [undefined, ↓reduceIte] at here_fits there_fits
    rw [SymbolView.address?_of_isUndefined undefined, SymbolView.address?_of_isUndefined undefined]
    dsimp only
    split
    · exact copy.gotSlot? kind symbol
    · exact copy.pltStub? kind symbol here_fits there_fits
  · simp only [undefined, Bool.false_eq_true, ↓reduceIte] at here_fits there_fits
    rw [SymbolView.address?_of_not_isUndefined placed undefined,
      SymbolView.address?_of_not_isUndefined placed undefined]
    unfold Image.place?
    dsimp only
    rw [← copy.header, if_pos shared, if_pos shared]
    apply plus?_of_moved ?_ here_fits there_fits
    rw [copy.left_space, copy.right_space, AddressSpace.placed, AddressSpace.placed,
      AddressSpace.base_mapped, AddressSpace.base_mapped]
    exact Nat.add_comm _ _

/-- Everything that can be asked of an image is the same of its copy, or else moved. -/
theorem isDisplaced (copy : IsCopy near far bytes limits left right) (files : Files) :
    left.IsDisplaced files near far right where
  header := copy.header
  segments := copy.segments
  sections := copy.sections
  sectionBytes := fun sec => congrFun (copy.agrees files).sectionBytes sec
  interpreter? := copy.interpreter?
  statics? := copy.statics?
  linkage? := copy.linkage?
  findDynamic? := by
    intro name
    unfold Image.findDynamic?
    rw [Option.bind_eq_bind, Option.map_bind, Option.map_bind]
    apply bind_eq_of_rel copy.linkage?
    intro _ _ displaced
    rw [Function.comp_apply, Function.comp_apply, displaced.find? name, Option.map_map,
      Option.map_map]
    rfl
  scanDynamic? := by
    intro name
    unfold Image.scanDynamic?
    rw [Option.bind_eq_bind, Option.map_bind, Option.map_bind]
    apply bind_eq_of_rel copy.linkage?
    intro _ _ displaced
    rw [Function.comp_apply, Function.comp_apply, displaced.scan? name, Option.map_map,
      Option.map_map]
    rfl
  findStatic? := fun name => findStatic?_congr copy.statics? name
  names := copy.names
  sectionAddress := fun sec listed => (copy.sectionAddress sec listed).1
  pltBase := copy.sectionBase ".plt"
  gotBase := copy.gotBase
  gotAddress? := copy.gotAddress?
  gotSlot? := copy.gotSlot?
  stubAddress? := fun _ _ same here_fits there_fits =>
    copy.stubAddress? same here_fits there_fits
  address? := copy.address?
  pltStub? := copy.pltStub?
  absolute := by
    intro kind symbol absolute
    unfold SymbolView.address?
    rw [if_pos absolute, if_pos absolute]

end IsCopy

end Image

end ElfLens
