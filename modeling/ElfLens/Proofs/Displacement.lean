import ElfLens.Dynamic.Linkage
import ElfLens.Proofs.StubDerivation

set_option autoImplicit false

namespace ElfLens

variable {near far : UInt64}

/-- The second address is as far from the second base as the first address is from the first. -/
def IsMoved (near far x y : UInt64) : Prop := x.toNat + far.toNat = y.toNat + near.toNat

/-- Either both addresses are absent, or both are present and the second is the first one moved. -/
def IsMovedOrAbsent (near far x y : UInt64) : Prop :=
  (x = 0 ∧ y = 0) ∨ (x ≠ 0 ∧ y ≠ 0 ∧ IsMoved near far x y)

theorem rel_orElse {α β : Type} {R : α → β → Prop} {a c : Option α} {b d : Option β}
    (first : Option.Rel R a b) (second : Option.Rel R c d) :
    Option.Rel R (a <|> c) (b <|> d) := by
  cases first with
  | some related => exact .some related
  | none => exact second

theorem rel_bind {α β γ δ : Type} {R : α → β → Prop} {S : γ → δ → Prop} {a : Option α}
    {b : Option β} {f : α → Option γ} {g : β → Option δ} (first : Option.Rel R a b)
    (next : ∀ x y, R x y → Option.Rel S (f x) (g y)) : Option.Rel S (a.bind f) (b.bind g) := by
  cases first with
  | some related => exact next _ _ related
  | none => exact .none

theorem bind_eq_of_rel {α β γ : Type} {R : α → β → Prop} {a : Option α} {b : Option β}
    {f : α → Option γ} {g : β → Option γ} (first : Option.Rel R a b)
    (next : ∀ x y, R x y → f x = g y) : a.bind f = b.bind g := by
  cases first with
  | some related => exact next _ _ related
  | none => rfl

theorem plus?_of_moved {base base' distance : UInt64} (bases : IsMoved near far base base')
    (fits : base.toNat + distance.toNat < UInt64.size)
    (fits' : base'.toNat + distance.toNat < UInt64.size) :
    Option.Rel (IsMoved near far) (Word.plus? base distance) (Word.plus? base' distance) := by
  have sum : Word.plus? base distance = some (base + distance) := if_pos fits
  have sum' : Word.plus? base' distance = some (base' + distance) := if_pos fits'
  have here := Word.plus?_eq_some_iff.mp sum
  have there := Word.plus?_eq_some_iff.mp sum'
  rw [sum, sum']
  apply Option.Rel.some
  unfold IsMoved at bases ⊢
  omega

/-- The stub of a moved slot is the moved stub, where neither sum is too large for an address. -/
theorem PltShape.stubAddress?_moved (shape : PltShape) {slot slot' got got' plt plt' : UInt64}
    (slots : IsMoved near far slot slot') (gots : IsMoved near far got got')
    (plts : IsMoved near far plt plt')
    (fits : shape.stubPlace slot got plt < UInt64.size)
    (fits' : shape.stubPlace slot' got' plt' < UInt64.size) :
    Option.Rel (IsMoved near far) (shape.stubAddress? slot got plt)
      (shape.stubAddress? slot' got' plt') := by
  have distance : slot.toNat - got.toNat = slot'.toNat - got'.toNat := by
    unfold IsMoved at slots gots
    omega
  have behind : got ≤ slot ↔ got' ≤ slot' := by
    unfold IsMoved at slots gots
    rw [UInt64.le_iff_toNat_le, UInt64.le_iff_toNat_le]
    omega
  by_cases derivable : 0 < shape.pointerWidth ∧ got ≤ slot
  · have present := isSome_stubAddress?_iff.mpr ⟨derivable.1, derivable.2, fits⟩
    have present' := isSome_stubAddress?_iff.mpr ⟨derivable.1, behind.mp derivable.2, fits'⟩
    obtain ⟨stub, here⟩ := Option.isSome_iff_exists.mp present
    obtain ⟨stub', there⟩ := Option.isSome_iff_exists.mp present'
    obtain ⟨-, -, place⟩ := stubAddress?_eq_some_iff.mp here
    obtain ⟨-, -, place'⟩ := stubAddress?_eq_some_iff.mp there
    rw [here, there]
    apply Option.Rel.some
    unfold IsMoved at plts ⊢
    rw [place, place', stubPlace, stubPlace, distance]
    omega
  · have here : shape.stubAddress? slot got plt = none := by
      rw [← Option.not_isSome_iff_eq_none, isSome_stubAddress?_iff, ← and_assoc]
      exact fun told => derivable told.1
    have there : shape.stubAddress? slot' got' plt' = none := by
      rw [← Option.not_isSome_iff_eq_none, isSome_stubAddress?_iff, ← and_assoc, ← behind]
      exact fun told => derivable told.1
    rw [here, there]
    exact .none

/-- A stored address stands for one address at each place, neither of them zero, and what can be
read from the one on can be read from the other on. -/
structure AddressSpace.Follows (left right : AddressSpace) (near far address : UInt64) : Prop where
  moved : IsMoved near far (left.normalize address) (right.normalize address)
  nonzero_left : left.normalize address ≠ 0
  nonzero_right : right.normalize address ≠ 0
  read : ∀ length, length ≠ 0 →
    (left.readTable (left.normalize address) length).toOption =
      (right.readTable (right.normalize address) length).toOption

/-- The tags whose values are followed. -/
def DynamicTag.pointers : List Int64 := [strings, symbols, hash, rela, rel, pltRelocations, pltGot]

/-- The pointers in a dynamic array, as they are stored. -/
def DynamicEntry.pointersOf (entries : List DynamicEntry) : List UInt64 :=
  DynamicTag.pointers.flatMap fun tag => valuesOf tag entries

namespace DynamicEntry

variable {left right : AddressSpace} {entries : List DynamicEntry}

theorem follows_of_pointersOf
    (follows : ∀ value ∈ pointersOf entries, left.Follows right near far value) (tag : Int64)
    (pointing : tag ∈ DynamicTag.pointers) :
    ∀ value ∈ valuesOf tag entries, left.Follows right near far value := by
  intro value listed
  exact follows value (List.mem_flatMap.mpr ⟨tag, pointing, listed⟩)

/-- No pointer that can be followed is passed over, so it is the first of its tag at both places. -/
theorem addressOf_cases {tag : Int64}
    (follows : ∀ value ∈ valuesOf tag entries, left.Follows right near far value) :
    (addressOf left.domain tag entries = 0 ∧ addressOf right.domain tag entries = 0) ∨
      ∃ value ∈ valuesOf tag entries, addressOf left.domain tag entries = left.normalize value ∧
        addressOf right.domain tag entries = right.normalize value := by
  unfold addressOf
  cases told : valuesOf tag entries with
  | nil => exact .inl ⟨rfl, rfl⟩
  | cons value more =>
      have first := follows value (by rw [told]; exact List.mem_cons_self ..)
      have here : left.domain.resolve value ≠ 0 := first.nonzero_left
      have there : right.domain.resolve value ≠ 0 := first.nonzero_right
      refine .inr ⟨value, List.mem_cons_self .., ?_, ?_⟩
      · simp [firstNonzero, here, AddressSpace.normalize]
      · simp [firstNonzero, there, AddressSpace.normalize]

theorem addressOf_moved {tag : Int64}
    (follows : ∀ value ∈ valuesOf tag entries, left.Follows right near far value) :
    IsMovedOrAbsent near far (addressOf left.domain tag entries)
      (addressOf right.domain tag entries) := by
  rcases addressOf_cases follows with absent | ⟨value, listed, here, there⟩
  · exact .inl absent
  · have followed := follows value listed
    rw [here, there]
    exact .inr ⟨followed.nonzero_left, followed.nonzero_right, followed.moved⟩

theorem tableAt?_addressOf {tag : Int64}
    (follows : ∀ value ∈ valuesOf tag entries, left.Follows right near far value)
    (byteSize stride : UInt64) :
    left.tableAt? ⟨addressOf left.domain tag entries, byteSize, stride⟩ =
      right.tableAt? ⟨addressOf right.domain tag entries, byteSize, stride⟩ := by
  rcases addressOf_cases follows with ⟨here, there⟩ | ⟨value, listed, here, there⟩
  · rw [here, there]
    rfl
  · have followed := follows value listed
    rw [here, there]
    by_cases empty : byteSize = 0
    · simp [AddressSpace.tableAt?, empty]
    · simp [AddressSpace.tableAt?, TableLocation.isPresent, empty, followed.nonzero_left,
        followed.nonzero_right, followed.read byteSize empty]

theorem readHash?_addressOf {tag : Int64} (layout : Layout)
    (follows : ∀ value ∈ valuesOf tag entries, left.Follows right near far value) :
    DynamicSymbols.readHash? left layout (addressOf left.domain tag entries) =
      DynamicSymbols.readHash? right layout (addressOf right.domain tag entries) := by
  have nonzero : ∀ buckets chains, (HashTable.byteSize buckets chains).toUInt64 ≠ 0 := by
    intro buckets chains zero
    have few := buckets.toNat_lt
    have short := chains.toNat_lt
    have size : (HashTable.byteSize buckets chains).toUInt64.toNat =
        HashTable.byteSize buckets chains :=
      UInt64.toNat_ofNat_of_lt' (by rw [Word.size_eq, HashTable.byteSize]; omega)
    rw [zero, UInt64.toNat_zero, HashTable.byteSize] at size
    omega
  rcases addressOf_cases follows with ⟨here, there⟩ | ⟨value, listed, here, there⟩
  · rw [here, there]
    rfl
  · have followed := follows value listed
    rw [here, there]
    simp only [DynamicSymbols.readHash?, followed.nonzero_left, followed.nonzero_right, ↓reduceIte,
      followed.read HashTable.headerSize.toUInt64 (by decide), followed.read _ (nonzero _ _)]

end DynamicEntry

/-- The tables with no word on where they lie. -/
def DynamicSymbols.unplaced (tables : DynamicSymbols) : DynamicSymbols :=
  { tables with
    stringLocation := { tables.stringLocation with address := 0 }
    symbolLocation := { tables.symbolLocation with address := 0 }
    hashAddress := 0 }

/-- Tables that differ only in where they lie give the same answer to whatever does not ask that. -/
theorem DynamicSymbols.same_of_unplaced {α : Type} {left right : DynamicSymbols}
    (same : left.unplaced = right.unplaced) (ask : DynamicSymbols → α)
    (blind : ∀ tables, ask tables.unplaced = ask tables) : ask left = ask right := by
  rw [← blind left, same, blind right]

/-- The tables with no word on where they lie. -/
def DynamicRelocations.unplaced (relocs : DynamicRelocations) : DynamicRelocations :=
  { relocs with
    relaLocation := { relocs.relaLocation with address := 0 }
    relLocation := { relocs.relLocation with address := 0 }
    pltLocation := { relocs.pltLocation with address := 0 }
    pltGot := 0 }

theorem DynamicRelocations.same_of_unplaced {α : Type} {left right : DynamicRelocations}
    (same : left.unplaced = right.unplaced) (ask : DynamicRelocations → α)
    (blind : ∀ relocs, ask relocs.unplaced = ask relocs) : ask left = ask right := by
  rw [← blind left, same, blind right]

theorem DynamicRelocations.mem_tables_iff {relocs : DynamicRelocations} {table : RelocationTable} :
    table ∈ relocs.tables ↔
      relocs.rela? = some table ∨ relocs.rel? = some table ∨ relocs.plt? = some table := by
  simp [tables, eq_comm]

section Locate

variable {left right : AddressSpace} {entries : List DynamicEntry}

theorem DynamicSymbols.unplaced_locate (layout : Layout)
    (follows : ∀ value ∈ DynamicEntry.pointersOf entries, left.Follows right near far value) :
    (locate left layout entries).unplaced = (locate right layout entries).unplaced := by
  have pointer := DynamicEntry.follows_of_pointersOf follows
  have hashed := DynamicEntry.readHash?_addressOf layout (pointer DynamicTag.hash (by decide))
  have strings := DynamicEntry.tableAt?_addressOf (pointer DynamicTag.strings (by decide))
  have symbols := DynamicEntry.tableAt?_addressOf (pointer DynamicTag.symbols (by decide))
  simp only [unplaced, locate, hashed, strings, symbols]

theorem DynamicRelocations.unplaced_locate (layout : Layout)
    (follows : ∀ value ∈ DynamicEntry.pointersOf entries, left.Follows right near far value) :
    (locate left layout entries).unplaced = (locate right layout entries).unplaced := by
  have pointer := DynamicEntry.follows_of_pointersOf follows
  have rela := DynamicEntry.tableAt?_addressOf (pointer DynamicTag.rela (by decide))
  have rel := DynamicEntry.tableAt?_addressOf (pointer DynamicTag.rel (by decide))
  have plt := DynamicEntry.tableAt?_addressOf (pointer DynamicTag.pltRelocations (by decide))
  simp only [unplaced, locate, readTable?, rela, rel, plt]

end Locate

namespace Linkage

/-- The addresses that the entries and the relocations hold, as they are stored. -/
def storedAddresses (linkage : Linkage) : List UInt64 :=
  DynamicEntry.pointersOf linkage.entries ++
    linkage.relocs.tables.flatMap fun table => table.relocations.map (·.offset)

/-- What one image tells the dynamic linker at two places: the same, with every address moved. -/
structure IsDisplaced (near far : UInt64) (left right : Linkage) : Prop where
  layout : left.layout = right.layout
  address : IsMoved near far left.address right.address
  byteSize : left.byteSize = right.byteSize
  entries : left.entries = right.entries
  hash? : left.symbols.hash? = right.symbols.hash?
  count : left.symbols.count = right.symbols.count
  symbols : left.symbols.symbols = right.symbols.symbols
  symbolAt : ∀ index, left.symbols.symbolAt index = right.symbols.symbolAt index
  stringAt : ∀ offset, left.symbols.stringAt offset = right.symbols.stringAt offset
  name : ∀ symbol, left.symbols.name symbol = right.symbols.name symbol
  findHashed : ∀ name, left.symbols.findHashed name = right.symbols.findHashed name
  find? : ∀ name, left.symbols.find? name = right.symbols.find? name
  scan? : ∀ name, left.symbols.scan? name = right.symbols.scan? name
  relocations : left.relocs.tables = right.relocs.tables
  stringsAt : IsMovedOrAbsent near far left.symbols.stringLocation.address
    right.symbols.stringLocation.address
  symbolsAt : IsMovedOrAbsent near far left.symbols.symbolLocation.address
    right.symbols.symbolLocation.address
  hashAt : IsMovedOrAbsent near far left.symbols.hashAddress right.symbols.hashAddress
  relaAt : IsMovedOrAbsent near far left.relocs.relaLocation.address
    right.relocs.relaLocation.address
  relAt : IsMovedOrAbsent near far left.relocs.relLocation.address
    right.relocs.relLocation.address
  pltAt : IsMovedOrAbsent near far left.relocs.pltLocation.address
    right.relocs.pltLocation.address
  pltGot : IsMovedOrAbsent near far left.relocs.pltGot right.relocs.pltGot
  gotEntry? : ∀ name, Option.Rel (IsMoved near far) (left.gotEntry? name) (right.gotEntry? name)
  gotPltEntry? : ∀ name,
    Option.Rel (IsMoved near far) (left.gotPltEntry? name) (right.gotPltEntry? name)

theorem IsDisplaced.texts {left right : Linkage} (displaced : IsDisplaced near far left right)
    (tag : Int64) : left.texts tag = right.texts tag := by
  have strings : left.symbols.stringAt = right.symbols.stringAt := funext displaced.stringAt
  rw [Linkage.texts, Linkage.texts, displaced.entries, strings]

/-- The slot of a name is that of the same relocation at both places. -/
theorem slot?_moved {left right : Linkage} {here there : Option RelocationTable}
    (same : left.symbols.unplaced = right.symbols.unplaced) (table : here = there)
    (slots : ∀ table, here = some table → ∀ relocation ∈ table.relocations,
      IsMoved near far (left.domain.resolve relocation.offset)
        (right.domain.resolve relocation.offset)) (name : String) :
    Option.Rel (IsMoved near far) (left.slot? here name) (right.slot? there name) := by
  have carried : left.symbols.carries = right.symbols.carries :=
    DynamicSymbols.same_of_unplaced same (·.carries) fun _ => rfl
  unfold slot?
  rw [carried, ← table]
  cases given : here with
  | none => exact .none
  | some table =>
      cases found : (table.search fun index =>
          right.symbols.carries (Bytes.ofText name) index.toNat).found with
      | none =>
          simp only [Option.bind_some, RelocationTable.findSlot?, found]
          exact .none
      | some relocation =>
          simp only [Option.bind_some, RelocationTable.findSlot?, found]
          rw [RelocationTable.search, Search.found_run] at found
          have held := List.mem_filter.mp (List.mem_of_find?_eq_some found)
          exact .some (slots table given relocation held.1)

theorem isDisplaced_ofEntries {left right : AddressSpace} (layout : Layout)
    {address moved : UInt64} (byteSize : UInt64) {entries : List DynamicEntry}
    (array : IsMoved near far address moved)
    (follows : ∀ value ∈ DynamicEntry.pointersOf entries, left.Follows right near far value)
    (slots : ∀ table ∈ (DynamicRelocations.locate left layout entries).tables,
      ∀ relocation ∈ table.relocations, IsMoved near far (left.normalize relocation.offset)
        (right.normalize relocation.offset)) :
    IsDisplaced near far (ofEntries left layout address byteSize entries)
      (ofEntries right layout moved byteSize entries) := by
  have symbols := DynamicSymbols.unplaced_locate layout follows
  have relocs := DynamicRelocations.unplaced_locate layout follows
  have pointer := DynamicEntry.follows_of_pointersOf follows
  have rela := DynamicRelocations.same_of_unplaced relocs (·.rela?) fun _ => rfl
  have rel := DynamicRelocations.same_of_unplaced relocs (·.rel?) fun _ => rfl
  have plt := DynamicRelocations.same_of_unplaced relocs (·.plt?) fun _ => rfl
  have listed : ∀ table, table ∈ (DynamicRelocations.locate left layout entries).tables ↔ _ :=
    fun _ => DynamicRelocations.mem_tables_iff
  exact {
    layout := rfl
    address := array
    byteSize := rfl
    entries := rfl
    hash? := DynamicSymbols.same_of_unplaced symbols (·.hash?) fun _ => rfl
    count := DynamicSymbols.same_of_unplaced symbols (·.count) fun _ => rfl
    symbols := DynamicSymbols.same_of_unplaced symbols (·.symbols) fun _ => rfl
    symbolAt := fun index =>
      DynamicSymbols.same_of_unplaced symbols (·.symbolAt index) fun _ => rfl
    stringAt := fun offset =>
      DynamicSymbols.same_of_unplaced symbols (·.stringAt offset) fun _ => rfl
    name := fun symbol => DynamicSymbols.same_of_unplaced symbols (·.name symbol) fun _ => rfl
    findHashed := fun name =>
      DynamicSymbols.same_of_unplaced symbols (·.findHashed name) fun _ => rfl
    find? := fun name => DynamicSymbols.same_of_unplaced symbols (·.find? name) fun _ => rfl
    scan? := fun name => DynamicSymbols.same_of_unplaced symbols (·.scan? name) fun _ => rfl
    relocations := DynamicRelocations.same_of_unplaced relocs (·.tables) fun _ => rfl
    stringsAt := DynamicEntry.addressOf_moved (pointer DynamicTag.strings (by decide))
    symbolsAt := DynamicEntry.addressOf_moved (pointer DynamicTag.symbols (by decide))
    hashAt := DynamicEntry.addressOf_moved (pointer DynamicTag.hash (by decide))
    relaAt := DynamicEntry.addressOf_moved (pointer DynamicTag.rela (by decide))
    relAt := DynamicEntry.addressOf_moved (pointer DynamicTag.rel (by decide))
    pltAt := DynamicEntry.addressOf_moved (pointer DynamicTag.pltRelocations (by decide))
    pltGot := DynamicEntry.addressOf_moved (pointer DynamicTag.pltGot (by decide))
    gotEntry? := by
      intro name
      apply rel_orElse
      · exact slot?_moved symbols rela
          (fun table given => slots table ((listed table).mpr (.inl given))) name
      · exact slot?_moved symbols rel
          (fun table given => slots table ((listed table).mpr (.inr (.inl given)))) name
    gotPltEntry? := fun name => slot?_moved symbols plt
      (fun table given => slots table ((listed table).mpr (.inr (.inr given)))) name }

end Linkage

end ElfLens
