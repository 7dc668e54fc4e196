import ElfLens.Proofs.DisplacedImage
import ElfLens.Proofs.Packing

set_option autoImplicit false

namespace ElfLens

/-- The memory answers behind the base as the file answers: the same bytes, or a fault as well. What
is larger than a table may be, and what takes up no bytes, does not count. -/
def Memory.Mirrors (memory : Memory) (base : UInt64) (file : AddressSpace) : Prop :=
  ∀ address length : UInt64, length ≠ 0 → length ≤ file.limits.tableBytes →
    base.toNat + address.toNat < UInt64.size →
      (memory.read (base + address) length).toOption = (file.readTable address length).toOption

section Mirrored

variable {file : AddressSpace} {memory : Memory} {base : UInt64}

namespace AddressSpace

theorem normalize_of_linked (linked : file.isMapped = false) (address : UInt64) :
    file.normalize address = address := by
  obtain ⟨memory, placement, limits⟩ := file
  cases placement with
  | mapped base high ordered => cases linked
  | file length loads => rfl

theorem toOption_readTable_of_mirrors (mirrors : memory.Mirrors base file) (high : UInt64)
    {address length : UInt64} (filled : length ≠ 0)
    (fits : base.toNat + address.toNat < UInt64.size) :
    (file.readTable address length).toOption =
      ((mapped memory base high file.limits).readTable (base + address) length).toOption := by
  rw [readTable_mapped]
  by_cases large : file.limits.tableBytes < length
  · rw [if_pos large, readTable, if_pos large]
    rfl
  · rw [if_neg large]
    exact (mirrors address length filled (UInt64.not_lt.mp large) fits).symm

theorem normalize_mapped_of_relative (high : UInt64) {limits : Limits} {address : UInt64}
    (relative : IsRelativeTo base address) :
    (mapped memory base high limits).normalize address = base + address := by
  apply UInt64.toNat_inj.mp
  rw [normalize, domain_mapped, relative.toNat_resolve, Word.toNat_add_of_fits relative.2]

theorem isMoved_normalize (linked : file.isMapped = false) (high : UInt64) {address : UInt64}
    (relative : IsRelativeTo base address) :
    IsMoved 0 base (file.normalize address)
      ((mapped memory base high file.limits).normalize address) := by
  rw [normalize_of_linked linked, normalize, domain_mapped, IsMoved, relative.toNat_resolve,
    UInt64.toNat_zero, Nat.add_zero, Nat.add_comm]

theorem follows_mapped (linked : file.isMapped = false) (mirrors : memory.Mirrors base file)
    (high : UInt64) {address : UInt64} (present : address ≠ 0)
    (relative : IsRelativeTo base address) :
    file.Follows (mapped memory base high file.limits) 0 base address where
  moved := isMoved_normalize linked high relative
  nonzero_left := by rwa [normalize_of_linked linked]
  nonzero_right := by
    rw [normalize, domain_mapped]
    exact relative.resolve_ne_zero
  read := by
    intro length filled
    rw [normalize_of_linked linked, normalize_mapped_of_relative high relative]
    exact toOption_readTable_of_mirrors mirrors high filled relative.2

end AddressSpace

namespace Linkage

/-- What a file tells the dynamic linker, and what it tells once it is loaded: the same entries,
tables, answers and texts, with every address that is there moved by the base. -/
structure IsLoaded (base : UInt64) (linked loaded : Linkage) : Prop
    extends IsDisplaced 0 base linked loaded where
  rela? : linked.relocs.rela? = loaded.relocs.rela?
  rel? : linked.relocs.rel? = loaded.relocs.rel?
  plt? : linked.relocs.plt? = loaded.relocs.plt?
  needed : linked.needed = loaded.needed
  soname? : linked.soname? = loaded.soname?
  rpath? : linked.rpath? = loaded.rpath?
  runpath? : linked.runpath? = loaded.runpath?
  flags? : linked.flags? = loaded.flags?

theorem isLoaded_ofEntries (linked : file.isMapped = false) (mirrors : memory.Mirrors base file)
    (high : UInt64) {layout : Layout} {address byteSize : UInt64} {entries : List DynamicEntry}
    (fits : base.toNat + address.toNat < UInt64.size)
    (present : 0 ∉ DynamicEntry.pointersOf entries)
    (relative : ∀ stored ∈ (ofEntries file layout address byteSize entries).storedAddresses,
      IsRelativeTo base stored) :
    IsLoaded base (ofEntries file layout address byteSize entries)
      (ofEntries (.mapped memory base high file.limits) layout (base + address) byteSize
        entries) := by
  have array : IsMoved 0 base address (base + address) := by
    rw [IsMoved, Word.toNat_add_of_fits fits, UInt64.toNat_zero, Nat.add_zero, Nat.add_comm]
  have follows : ∀ value ∈ DynamicEntry.pointersOf entries,
      file.Follows (.mapped memory base high file.limits) 0 base value := by
    intro value listed
    apply AddressSpace.follows_mapped linked mirrors high
    · rintro rfl
      exact present listed
    · exact relative value (List.mem_append_left _ listed)
  have displaced := isDisplaced_ofEntries layout byteSize array follows (by
    intro table listed relocation held
    apply AddressSpace.isMoved_normalize linked high
    apply relative
    apply List.mem_append_right
    exact List.mem_flatMap.mpr ⟨table, listed, List.mem_map_of_mem held⟩)
  have relocs := DynamicRelocations.unplaced_locate layout follows
  exact { displaced with
    rela? := DynamicRelocations.same_of_unplaced relocs (·.rela?) fun _ => rfl
    rel? := DynamicRelocations.same_of_unplaced relocs (·.rel?) fun _ => rfl
    plt? := DynamicRelocations.same_of_unplaced relocs (·.plt?) fun _ => rfl
    needed := displaced.texts DynamicTag.needed
    soname? := congrArg List.head? (displaced.texts DynamicTag.soname)
    rpath? := congrArg List.head? (displaced.texts DynamicTag.rpath)
    runpath? := congrArg List.head? (displaced.texts DynamicTag.runpath)
    flags? := rfl }

/-- A dynamic array that is read from a file is read from the memory that the file was loaded into,
and says the same there with every address moved by the base; one that cannot be read from the file
cannot be read from memory. -/
theorem isLoaded_read (linked : file.isMapped = false) (mirrors : memory.Mirrors base file)
    (high : UInt64) {layout : Layout} {address byteSize : UInt64} (filled : byteSize ≠ 0)
    (fits : base.toNat + address.toNat < UInt64.size)
    (relative : ∀ linkage, read file layout address byteSize = .ok linkage →
      0 ∉ DynamicEntry.pointersOf linkage.entries ∧
        ∀ stored ∈ linkage.storedAddresses, IsRelativeTo base stored) :
    Option.Rel (IsLoaded base) (read file layout address byteSize).toOption
      (read (.mapped memory base high file.limits) layout (base + address) byteSize).toOption := by
  have same := AddressSpace.toOption_readTable_of_mirrors mirrors high filled fits
  unfold read at relative ⊢
  cases array : file.readTable address byteSize with
  | error fault =>
      rw [array] at same
      cases moved : (AddressSpace.mapped memory base high file.limits).readTable (base + address)
          byteSize with
      | error other => exact .none
      | ok bytes =>
          rw [moved] at same
          cases same
  | ok bytes =>
      rw [array] at same relative
      cases moved : (AddressSpace.mapped memory base high file.limits).readTable (base + address)
          byteSize with
      | error other =>
          rw [moved] at same
          cases same
      | ok also =>
          rw [moved] at same
          obtain rfl : bytes = also := Option.some.inj same
          obtain ⟨present, stored⟩ := relative _ rfl
          exact .some (isLoaded_ofEntries linked mirrors high fits present stored)

end Linkage

end Mirrored

/-- The chunk of memory that a segment is loaded into. -/
def Segment.chunk (segment : Segment) (base : UInt64) (content : Bytes) : Chunk :=
  ⟨base + segment.vaddr,
    content.extract segment.offset.toNat (segment.offset.toNat + segment.fileSize.toNat)⟩

/-- The memory that the segments of a file are loaded into, each at its address behind the base. -/
def Memory.ofSegments (base : UInt64) (content : Bytes) (loads : List Segment) : Memory :=
  ofChunks (loads.map (·.chunk base content))

/-- The bytes of the segment are in the file, and it has an address behind the base. -/
structure Segment.IsLoadable (segment : Segment) (base : UInt64) (content : Bytes) : Prop where
  inside : segment.offset.toNat + segment.fileSize.toNat ≤ content.size
  fits : base.toNat + segment.vaddr.toNat < UInt64.size

instance (segment : Segment) (base : UInt64) (content : Bytes) :
    Decidable (segment.IsLoadable base content) :=
  decidable_of_iff (_ ∧ _) ⟨fun both => ⟨both.1, both.2⟩, fun both => ⟨both.1, both.2⟩⟩

namespace Segment

theorem rangeOffset?_eq_some_iff {segment : Segment} {address length start : UInt64} :
    segment.rangeOffset? address length = some start ↔
      ∃ distance, address.toNat = segment.vaddr.toNat + distance ∧
        start.toNat = segment.offset.toNat + distance ∧ distance < segment.fileSize.toNat ∧
        distance + length.toNat ≤ segment.fileSize.toNat := by
  simp only [rangeOffset?, fileOffset?, bind, Option.bind_eq_some_iff,
    Option.ite_none_right_eq_some, Word.minus?_eq_some_iff, Word.plus?_eq_some_iff,
    UInt64.lt_iff_toNat_lt, UInt64.le_iff_toNat_le, Option.some.injEq]
  constructor
  · rintro ⟨_, ⟨distance, away, below, sum⟩, other, again, stop, reach, within, rfl⟩
    refine ⟨distance.toNat, away, sum, below, ?_⟩
    omega
  · rintro ⟨distance, away, sum, below, within⟩
    have bound := segment.fileSize.toNat_lt
    have word : distance.toUInt64.toNat = distance :=
      UInt64.toNat_ofNat_of_lt' (Nat.lt_trans below bound)
    have stop : (distance + length.toNat).toUInt64.toNat = distance + length.toNat :=
      UInt64.toNat_ofNat_of_lt' (Nat.lt_of_le_of_lt within bound)
    refine ⟨start, ⟨distance.toUInt64, ?_, ?_, ?_⟩, distance.toUInt64, ?_,
      (distance + length.toNat).toUInt64, ?_, ?_, rfl⟩
    · rwa [word]
    · rwa [word]
    · rwa [word]
    · rwa [word]
    · rw [stop, word]
    · rwa [stop]

/-- A range of addresses that takes up bytes is read from a loaded segment as from its file. -/
theorem read?_chunk {segment : Segment} {base address length : UInt64} {content : Bytes}
    (loadable : segment.IsLoadable base content) (small : content.size < UInt64.size)
    (filled : length ≠ 0) (fits : base.toNat + address.toNat < UInt64.size) :
    (segment.chunk base content).read? (base + address) length =
      (segment.rangeOffset? address length).bind fun start =>
        content.slice? start.toNat length.toNat := by
  obtain ⟨inside, placed⟩ := loadable
  -- No bytes at the very end of the segment are a part of the chunk, but no range of the segment.
  have positive : 0 < length.toNat := UInt64.pos_iff_ne_zero.mpr filled
  have size : (content.extract segment.offset.toNat
      (segment.offset.toNat + segment.fileSize.toNat)).size = segment.fileSize.toNat := by
    rw [Array.size_extract]
    omega
  apply Option.ext
  intro part
  rw [Chunk.read?_eq_some_iff, Option.bind_eq_some_iff]
  simp only [chunk, rangeOffset?_eq_some_iff, Bytes.slice?_eq_some_iff, size,
    Word.toNat_add_of_fits fits, Word.toNat_add_of_fits placed, Array.extract_extract]
  constructor
  · rintro ⟨distance, away, within, same⟩
    have word : (segment.offset.toNat + distance).toUInt64.toNat =
        segment.offset.toNat + distance := UInt64.toNat_ofNat_of_lt' (by omega)
    refine ⟨(segment.offset.toNat + distance).toUInt64,
      ⟨distance, by omega, word, by omega, within⟩, ?_, ?_⟩
    · omega
    · rw [same, word]
      congr 1
      omega
  · rintro ⟨start, ⟨distance, away, sum, below, within⟩, -, same⟩
    refine ⟨distance, by omega, within, ?_⟩
    rw [same, sum]
    congr 1
    omega

end Segment

/-- A search that goes on from what another one finds, and never fails there, goes the same way. -/
theorem findSome?_eq_bind {α β γ : Type} {f : α → Option β} {g : α → Option γ} {h : β → Option γ}
    {xs : List α} (step : ∀ x ∈ xs, g x = (f x).bind h)
    (total : ∀ x ∈ xs, ∀ y, f x = some y → (h y).isSome) :
    xs.findSome? g = (xs.findSome? f).bind h := by
  induction xs with
  | nil => rfl
  | cons x xs ih =>
      have rest := ih (fun x listed => step x (List.mem_cons_of_mem _ listed))
        (fun x listed => total x (List.mem_cons_of_mem _ listed))
      rw [List.findSome?_cons, List.findSome?_cons, step x (List.mem_cons_self ..), rest]
      cases found : f x with
      | none => rfl
      | some y =>
          obtain ⟨z, onward⟩ :=
            Option.isSome_iff_exists.mp (total x (List.mem_cons_self ..) y found)
          simp only [Option.bind_some, onward]

/-- Memory that the segments of a file were loaded into answers as the file answers. -/
theorem Memory.mirrors_ofSegments {base : UInt64} {content : Bytes} {limits : Limits}
    {loads : List Segment} (filled : content ≠ #[]) (small : content.size < UInt64.size)
    (loadable : ∀ segment ∈ loads, segment.IsLoadable base content) :
    (ofSegments base content loads).Mirrors base
      ⟨.ofFile content, .file content.size.toUInt64 loads, limits⟩ := by
  intro address length some_bytes allowed fits
  have found : (loads.map (·.chunk base content)).findSome? (·.read? (base + address) length) =
      (loads.findSome? (·.rangeOffset? address length)).bind fun start =>
        content.slice? start.toNat length.toNat := by
    rw [List.findSome?_map]
    apply findSome?_eq_bind
    · intro segment listed
      exact Segment.read?_chunk (loadable segment listed) small some_bytes fits
    · intro segment listed start reached
      obtain ⟨distance, -, sum, -, within⟩ := Segment.rangeOffset?_eq_some_iff.mp reached
      have inside := (loadable segment listed).inside
      rw [Bytes.slice?, if_pos (by omega)]
      rfl
  rw [AddressSpace.readTable, if_neg (UInt64.not_lt.mpr allowed)]
  simp only [ofSegments, ofChunks, found, AddressSpace.fileOffset?]
  cases loads.findSome? (·.rangeOffset? address length) with
  | none => rfl
  | some start =>
      simp only [Option.bind_some, read_ofFile filled]
      cases content.slice? start.toNat length.toNat <;> rfl

namespace TwoSegments

def layout : Layout := ⟨.elf32, .little⟩

/-- A string table, a symbol table, hash chains and a relocation, and the dynamic array that locates
them, without a header. -/
def content : Bytes :=
  let symbols := [⟨0, 0, 0, 0, 0, 0, 0⟩, Symbol.mk 1 1 0x10 4 0x12 0 7]
  let relocation : Relocation := { offset := 0x1100, symbol := 1, typeCode := 6, addend := 0 }
  let array := DynamicEntry.mk DynamicTag.strings 0x400 :: ⟨DynamicTag.stringsSize, 4⟩ ::
    ⟨DynamicTag.symbols, 0x404⟩ :: ⟨DynamicTag.hash, 0x424⟩ :: ⟨DynamicTag.rel, 0x438⟩ ::
    ⟨DynamicTag.relSize, 8⟩ :: ⟨DynamicTag.pltGot, 0x1200⟩ :: [⟨DynamicTag.needed, 1⟩]
  ([0, 97, 98, 0] ++ symbols.flatMap (Symbol.encode layout) ++
    (HashTable.mk #[1] #[0, 0]).encode .little ++ relocation.encode layout .rel ++
    DynamicEntry.encodeArray layout array 0 []).toArray

/-- The tables are loaded at one address and the dynamic array at another. -/
def loads : List Segment :=
  [{ index := 0, typeCode := 1, flagBits := 4, offset := 0, vaddr := 0x400, paddr := 0x400
     fileSize := 64, memSize := 64, align := 4 },
    { index := 1, typeCode := 1, flagBits := 6, offset := 64, vaddr := 0x1000, paddr := 0x1000
      fileSize := 72, memSize := 72, align := 4 }]

def file : AddressSpace := ⟨.ofFile content, .file content.size.toUInt64 loads, {}⟩

theorem content_isLoaded :
    ∃ linked loaded, Linkage.read file layout 0x1000 72 = .ok linked ∧
      Linkage.read (.mapped (.ofSegments 0x10000 content loads) 0x10000 0x12000 {}) layout
        (0x10000 + 0x1000) 72 = .ok loaded ∧
      linked.gotEntry? "ab" = some 0x1100 ∧ loaded.needed = ["ab"] ∧
      linked.IsLoaded 0x10000 loaded := by
  have told : (Linkage.read file layout 0x1000 72).toOption.map (fun linkage =>
      (DynamicEntry.pointersOf linkage.entries, linkage.storedAddresses, linkage.gotEntry? "ab",
        linkage.needed)) =
      some ([0x400, 0x404, 0x424, 0x438, 0x1200], [0x400, 0x404, 0x424, 0x438, 0x1200, 0x1100],
        some 0x1100, ["ab"]) := by decide +kernel
  have loadable : ∀ segment ∈ loads, segment.IsLoadable 0x10000 content := by
    have inside : loads.all (fun segment => decide
        (segment.offset.toNat + segment.fileSize.toNat ≤ content.size ∧
          (0x10000 : UInt64).toNat + segment.vaddr.toNat < UInt64.size)) := by decide +kernel
    intro segment listed
    obtain ⟨inside, fits⟩ := of_decide_eq_true (List.all_eq_true.mp inside segment listed)
    exact ⟨inside, fits⟩
  have relative : [0x400, 0x404, 0x424, 0x438, 0x1200, 0x1100].all (fun address =>
      decide (IsRelativeTo 0x10000 address)) = true := by decide
  have mirrors : (Memory.ofSegments 0x10000 content loads).Mirrors 0x10000 file :=
    Memory.mirrors_ofSegments (by decide +kernel) (by decide +kernel) loadable
  obtain ⟨linked, read, parts⟩ := exists_of_toOption_map told
  obtain ⟨pointers, rest⟩ := Prod.mk.inj parts
  obtain ⟨stored, rest⟩ := Prod.mk.inj rest
  obtain ⟨slot, needed⟩ := Prod.mk.inj rest
  have related := Linkage.isLoaded_read rfl mirrors 0x12000 (show (72 : UInt64) ≠ 0 by decide)
    (show (0x10000 : UInt64).toNat + (0x1000 : UInt64).toNat < UInt64.size by decide) (by
      intro linkage again
      obtain rfl : linked = linkage := Except.ok.inj (read.symm.trans again)
      rw [pointers, stored]
      refine ⟨by decide, ?_⟩
      intro address listed
      exact of_decide_eq_true (List.all_eq_true.mp relative address listed))
  rw [read] at related
  change Option.Rel _ _ (Linkage.read (.mapped (.ofSegments 0x10000 content loads) 0x10000
    0x12000 {}) layout (0x10000 + 0x1000) 72).toOption at related
  generalize Linkage.read (.mapped (.ofSegments 0x10000 content loads) 0x10000 0x12000 {})
    layout (0x10000 + 0x1000) 72 = outcome at related ⊢
  cases outcome with
  | error fault => cases related
  | ok loaded =>
      cases related with
      | some same => exact ⟨linked, loaded, read, rfl, slot, same.needed ▸ needed, same⟩

end TwoSegments

end ElfLens
