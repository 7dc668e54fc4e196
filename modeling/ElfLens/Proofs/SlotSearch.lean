import ElfLens.Proofs.MissingTables
import ElfLens.Proofs.TagOrder

set_option autoImplicit false

namespace ElfLens

theorem Bytes.eq_ofText_of_text? {bytes : Bytes} {text : String}
    (spelled : bytes.text? = some text) : bytes = ofText text := by
  unfold text? String.fromUTF8? at spelled
  split at spelled
  · cases spelled
    rfl
  · cases spelled

/-- The first of the values at numbers below a bound that passes a test. -/
theorem find?_filterMap_range_eq_some_iff {α : Type} {f : Nat → Option α} {passes : α → Bool}
    {count : Nat} {x : α} :
    ((List.range count).filterMap f).find? passes = some x ↔
      ∃ index < count, f index = some x ∧ passes x = true ∧
        ∀ earlier < index, ∀ other, f earlier = some other → passes other = false := by
  rw [List.find?_filterMap, Option.bind_eq_some_iff]
  constructor
  · rintro ⟨index, found, stands⟩
    obtain ⟨any, listed, before⟩ := List.find?_range_eq_some.mp found
    rw [stands, Option.any_some] at any
    refine ⟨index, List.mem_range.mp listed, stands, any, ?_⟩
    intro earlier below other known
    have none := before earlier below
    rwa [known, Option.any_some, Bool.not_eq_eq_eq_not, Bool.not_true] at none
  · rintro ⟨index, inside, stands, passed, before⟩
    refine ⟨index, List.find?_range_eq_some.mpr ⟨?_, List.mem_range.mpr inside, ?_⟩, stands⟩
    · rw [stands, Option.any_some]
      exact passed
    · intro earlier below
      cases known : f earlier with
      | none => rfl
      | some other =>
          rw [Option.any_some, before earlier below other known]
          rfl

namespace DynamicSymbols

/-- A symbol carries a name exactly if it can be read and its name can be, and is that one. -/
theorem carries_iff_name {tables : DynamicSymbols} {text : String} {index : Nat} :
    tables.carries (Bytes.ofText text) index = true ↔
      ∃ symbol, tables.symbolAt index = .ok symbol ∧ tables.name symbol = .ok text := by
  constructor
  · intro carried
    obtain ⟨-, symbol, -, stands, -⟩ := carries_iff.mp carried
    exact ⟨symbol, symbolAt_eq_ok_iff.mpr stands, name_of_carries carried stands⟩
  · rintro ⟨symbol, stands, named⟩
    rw [name, stringAt, UInt32.toNat_toUInt64] at named
    cases present : tables.strings? with
    | none =>
        rw [present] at named
        cases named
    | some strings =>
        simp only [present, Bytes.ctext] at named
        cases spelled : (strings.cstring? symbol.nameOffset.toNat).bind Bytes.text? with
        | none =>
            rw [spelled] at named
            cases named
        | some other =>
            rw [spelled] at named
            obtain rfl : other = text := Except.ok.inj named
            obtain ⟨bytes, found, read⟩ := Option.bind_eq_some_iff.mp spelled
            rw [Bytes.eq_ofText_of_text? read] at found
            exact carries_iff.mpr ⟨strings, symbol, present, symbolAt_eq_ok_iff.mp stands, found⟩

end DynamicSymbols

namespace RelocationTable

/-- The relocation at an index, when the table has it whole. -/
def relocation? (relocs : RelocationTable) (index : Nat) : Option Relocation :=
  relocs.table.decode? (Relocation.fields relocs.table.layout relocs.kind) index

/-- The slot found is that of the first relocation that has a symbol and whose symbol answers. -/
theorem findSlot?_eq_some_iff {relocs : RelocationTable} {answers : UInt32 → Bool}
    {slot : UInt64} :
    relocs.findSlot? answers = some slot ↔
      ∃ index relocation, relocs.relocation? index = some relocation ∧
        relocation.offset = slot ∧ (relocation.symbol ≠ 0 ∧ answers relocation.symbol = true) ∧
        ∀ earlier < index, ∀ other, relocs.relocation? earlier = some other →
          ¬ (other.symbol ≠ 0 ∧ answers other.symbol = true) := by
  rw [findSlot?, search, Search.found_run, List.find?_filter, Option.map_eq_some_iff]
  constructor
  · rintro ⟨relocation, found, rfl⟩
    obtain ⟨index, -, stands, passed, before⟩ := find?_filterMap_range_eq_some_iff.mp found
    refine ⟨index, relocation, stands, rfl, by simpa using passed, ?_⟩
    intro earlier below other known
    simpa using before earlier below other known
  · rintro ⟨index, relocation, stands, rfl, passed, before⟩
    refine ⟨relocation, find?_filterMap_range_eq_some_iff.mpr ?_, rfl⟩
    refine ⟨index, Table.lt_size_of_decode? stands, stands, by simpa using passed, ?_⟩
    intro earlier below other known
    simpa using before earlier below other known

end RelocationTable

/-- Two lists of relocations agree but for those that do not count, wherever such ones stand in
either list, and for the types and the addends of those that do. -/
inductive Relocation.AgreeBut (Idle : Relocation → Prop) :
    List Relocation → List Relocation → Prop where
  | nil : AgreeBut Idle [] []
  | keep {x y : Relocation} {xs ys : List Relocation} (offset : x.offset = y.offset)
      (symbol : x.symbol = y.symbol) (rest : AgreeBut Idle xs ys) :
      AgreeBut Idle (x :: xs) (y :: ys)
  | left {x : Relocation} {xs ys : List Relocation} (idle : Idle x) (rest : AgreeBut Idle xs ys) :
      AgreeBut Idle (x :: xs) ys
  | right {y : Relocation} {xs ys : List Relocation} (idle : Idle y)
      (rest : AgreeBut Idle xs ys) : AgreeBut Idle xs (y :: ys)

theorem Relocation.AgreeBut.refl {Idle : Relocation → Prop} (relocations : List Relocation) :
    AgreeBut Idle relocations relocations := by
  induction relocations with
  | nil => exact .nil
  | cons relocation rest ih => exact .keep rfl rfl ih

/-- A search that asks only for the symbol, and passes over what does not count, finds the same
slot in both. -/
theorem Relocation.AgreeBut.find?_offset {Idle : Relocation → Prop} {xs ys : List Relocation}
    {asks : Relocation → Bool} (agree : AgreeBut Idle xs ys)
    (passes : ∀ x, Idle x → asks x = false)
    (blind : ∀ x y, x.symbol = y.symbol → asks x = asks y) :
    (xs.find? asks).map (·.offset) = (ys.find? asks).map (·.offset) := by
  induction agree with
  | nil => rfl
  | @keep x y xs ys offset symbol rest ih =>
      rw [List.find?_cons, List.find?_cons, blind x y symbol]
      cases asks y with
      | false => exact ih
      | true => exact congrArg some offset
  | @left x xs ys idle rest ih =>
      rw [List.find?_cons, passes x idle]
      exact ih
  | @right y xs ys idle rest ih =>
      rw [List.find?_cons, passes y idle]
      exact ih

theorem Layout.toNat_relocationSize (layout : Layout) (addend : Bool) :
    (layout.relocationSize addend).toUInt64.toNat = layout.relocationSize addend := by
  unfold relocationSize
  split <;> rfl

namespace DynamicRelocations

theorem of_readTable? {space : AddressSpace} {layout : Layout} {kind : RelocationKind}
    {location : TableLocation} {relocs : RelocationTable}
    (read : readTable? space layout kind location = some relocs) :
    relocs.kind = kind ∧ relocs.table.layout = layout ∧
      relocs.table.stride = location.stride.toNat := by
  obtain ⟨bytes, -, more⟩ := Option.bind_eq_some_iff.mp read
  obtain ⟨table, made, same⟩ := Option.bind_eq_some_iff.mp more
  obtain rfl : ⟨table, kind⟩ = relocs := Option.some.inj same
  obtain ⟨-, stride, same⟩ := Table.of_make? (eq_ok_of_toOption made)
  exact ⟨rfl, same, stride⟩

/-- Every table has relocations of its kind, as far apart as the array says; those of the PLT are of
the kind that the array names, and as far apart as that kind is long. -/
structure HasKinds (layout : Layout) (relocs : DynamicRelocations) : Prop where
  rela : ∀ table ∈ relocs.rela?, table.kind = .rela ∧ table.table.layout = layout ∧
    table.table.stride = relocs.relaLocation.stride.toNat
  rel : ∀ table ∈ relocs.rel?, table.kind = .rel ∧ table.table.layout = layout ∧
    table.table.stride = relocs.relLocation.stride.toNat
  plt : ∀ table ∈ relocs.plt?, relocs.pltKind? = some table.kind ∧
    table.table.layout = layout ∧
    table.table.stride = layout.relocationSize table.kind.hasAddend

theorem hasKinds_locate (space : AddressSpace) (layout : Layout) (entries : List DynamicEntry) :
    (locate space layout entries).HasKinds layout where
  rela table given := of_readTable? given
  rel table given := of_readTable? given
  plt table given := by
    obtain ⟨kind, named, read⟩ := Option.bind_eq_some_iff.mp given
    obtain ⟨rfl, same, stride⟩ := of_readTable? read
    refine ⟨named, same, ?_⟩
    rw [stride, named]
    exact layout.toNat_relocationSize _

theorem plt?_eq_none {space : AddressSpace} {layout : Layout} {entries : List DynamicEntry}
    (unnamed : (locate space layout entries).pltKind? = none) :
    (locate space layout entries).plt? = none := by
  change Option.bind _ _ = none
  rw [show (DynamicEntry.valuesOf DynamicTag.pltRelocationKind entries).findSome?
    RelocationKind.ofTag? = none from unnamed]
  rfl

end DynamicRelocations

namespace Linkage

/-- The relocation has a symbol, and the symbol has the name. -/
def Concerns (linkage : Linkage) (name : String) (relocation : Relocation) : Prop :=
  relocation.symbol ≠ 0 ∧ ∃ symbol, linkage.symbols.symbolAt relocation.symbol.toNat = .ok symbol ∧
    linkage.symbols.name symbol = .ok name

/-- The relocation is the first of a table to concern the name. -/
def IsFirstIn (linkage : Linkage) (table? : Option RelocationTable) (name : String)
    (relocation : Relocation) : Prop :=
  ∃ table index, table? = some table ∧ table.relocation? index = some relocation ∧
    linkage.Concerns name relocation ∧
    ∀ earlier < index, ∀ other, table.relocation? earlier = some other →
      ¬ linkage.Concerns name other

/-- The address is that of the slot of the first relocation of a table to concern the name. -/
def IsSlotIn (linkage : Linkage) (table? : Option RelocationTable) (name : String)
    (address : UInt64) : Prop :=
  ∃ relocation, linkage.IsFirstIn table? name relocation ∧
    linkage.domain.resolve relocation.offset = address

theorem concerns_iff {linkage : Linkage} {name : String} {relocation : Relocation} :
    linkage.Concerns name relocation ↔ relocation.symbol ≠ 0 ∧
      linkage.symbols.carries (Bytes.ofText name) relocation.symbol.toNat = true := by
  rw [Concerns, DynamicSymbols.carries_iff_name]

theorem slot?_eq_some_iff {linkage : Linkage} {table? : Option RelocationTable} {name : String}
    {address : UInt64} :
    linkage.slot? table? name = some address ↔ linkage.IsSlotIn table? name address := by
  unfold slot? IsSlotIn IsFirstIn
  simp only [Option.map_eq_some_iff, Option.bind_eq_some_iff,
    RelocationTable.findSlot?_eq_some_iff, ← concerns_iff]
  constructor
  · rintro ⟨_, ⟨table, present, index, relocation, stands, rfl, concerned, before⟩, rfl⟩
    exact ⟨relocation, ⟨table, index, present, stands, concerned, before⟩, rfl⟩
  · rintro ⟨relocation, ⟨table, index, present, stands, concerned, before⟩, rfl⟩
    exact ⟨_, ⟨table, present, index, relocation, stands, rfl, concerned, before⟩, rfl⟩

/-- The relocations that a table has whole, none if there is no table. -/
def recordsIn (table? : Option RelocationTable) : List Relocation :=
  (table?.map (·.relocations)).getD []

/-- The tables of two arrays agree but for relocations that do not concern the name. -/
structure AgreesFor (name : String) (left right : Linkage) : Prop where
  domain : left.domain = right.domain
  strings? : left.symbols.strings? = right.symbols.strings?
  symbols? : left.symbols.symbols? = right.symbols.symbols?
  rela : Relocation.AgreeBut (fun relocation => ¬ left.Concerns name relocation)
    (recordsIn left.relocs.rela?) (recordsIn right.relocs.rela?)
  rel : Relocation.AgreeBut (fun relocation => ¬ left.Concerns name relocation)
    (recordsIn left.relocs.rel?) (recordsIn right.relocs.rel?)
  plt : Relocation.AgreeBut (fun relocation => ¬ left.Concerns name relocation)
    (recordsIn left.relocs.plt?) (recordsIn right.relocs.plt?)

theorem slot?_eq_find? (linkage : Linkage) (table? : Option RelocationTable) (name : String) :
    linkage.slot? table? name =
      (((recordsIn table?).find? fun relocation => decide (relocation.symbol ≠ 0 ∧
        linkage.symbols.carries (Bytes.ofText name) relocation.symbol.toNat = true)).map
          (·.offset)).map linkage.domain.resolve := by
  unfold slot? recordsIn
  cases table? with
  | none => rfl
  | some table =>
      simp only [Option.bind_some, Option.map_some, Option.getD_some, RelocationTable.findSlot?,
        RelocationTable.search, Search.found_run, List.find?_filter, decide_eq_true_eq]

section Agreement

variable {left right : Linkage} {name : String}

theorem AgreesFor.slot?_eq (agree : AgreesFor name left right)
    {here there : Option RelocationTable}
    (records : Relocation.AgreeBut (fun relocation => ¬ left.Concerns name relocation)
      (recordsIn here) (recordsIn there)) :
    left.slot? here name = right.slot? there name := by
  have carries : left.symbols.carries = right.symbols.carries := by
    unfold DynamicSymbols.carries DynamicSymbols.nameAt? DynamicSymbols.symbol?
    rw [agree.strings?, agree.symbols?]
  rw [slot?_eq_find?, slot?_eq_find?, ← carries, agree.domain]
  apply congrArg (Option.map _)
  apply records.find?_offset
  · intro relocation idle
    exact decide_eq_false fun both => idle (concerns_iff.mpr both)
  · intro first second symbol
    rw [symbol]

theorem AgreesFor.gotEntry?_eq (agree : AgreesFor name left right) :
    left.gotEntry? name = right.gotEntry? name := by
  unfold gotEntry?
  rw [agree.slot?_eq agree.rela, agree.slot?_eq agree.rel]

theorem AgreesFor.gotPltEntry?_eq (agree : AgreesFor name left right) :
    left.gotPltEntry? name = right.gotPltEntry? name :=
  agree.slot?_eq agree.plt

end Agreement

theorem slot?_eq_none_iff {linkage : Linkage} {table? : Option RelocationTable} {name : String} :
    linkage.slot? table? name = none ↔
      ∀ relocation ∈ recordsIn table?, ¬ linkage.Concerns name relocation := by
  rw [slot?_eq_find?, Option.map_eq_none_iff, Option.map_eq_none_iff, List.find?_eq_none]
  simp only [decide_eq_true_eq, concerns_iff]

theorem gotEntry?_eq_some_iff {linkage : Linkage} {name : String} {slot : UInt64} :
    linkage.gotEntry? name = some slot ↔
      linkage.IsSlotIn linkage.relocs.rela? name slot ∨
        (∀ relocation ∈ recordsIn linkage.relocs.rela?, ¬ linkage.Concerns name relocation) ∧
          linkage.IsSlotIn linkage.relocs.rel? name slot := by
  rw [← slot?_eq_some_iff, ← slot?_eq_some_iff, ← slot?_eq_none_iff]
  exact Option.orElse_eq_some _ _ _

/-- The slot of a name in the GOT is that of the first relocation in the table with addends whose
symbol has the name, or, if there is none, of the first in the table without. The slot of the PLT is
that of the first in the table of the PLT, whose kind is the first that the entries name; if they
name none, there is no slot. Whatever else the tables hold, and wherever they hold it, the slots are
the same. -/
theorem slots_of_first_relocations {space : AddressSpace} {layout : Layout}
    {address byteSize : UInt64} {linkage : Linkage}
    (opened : read space layout address byteSize = .ok linkage) (name : String) :
    (∀ slot, linkage.gotEntry? name = some slot ↔
      linkage.IsSlotIn linkage.relocs.rela? name slot ∨
        (∀ relocation ∈ recordsIn linkage.relocs.rela?, ¬ linkage.Concerns name relocation) ∧
          linkage.IsSlotIn linkage.relocs.rel? name slot) ∧
    (∀ slot, linkage.gotPltEntry? name = some slot ↔
      linkage.IsSlotIn linkage.relocs.plt? name slot) ∧
    linkage.relocs.HasKinds layout ∧
    DynamicEntry.IsFirst RelocationKind.ofTag? DynamicTag.pltRelocationKind linkage.entries
      linkage.relocs.pltKind? ∧
    (linkage.relocs.pltKind? = none → linkage.gotPltEntry? name = none) ∧
    ∀ other, AgreesFor name linkage other →
      linkage.gotEntry? name = other.gotEntry? name ∧
        linkage.gotPltEntry? name = other.gotPltEntry? name := by
  obtain ⟨entries, rfl⟩ := exists_ofEntries_of_read opened
  refine ⟨fun slot => gotEntry?_eq_some_iff, fun slot => slot?_eq_some_iff,
    DynamicRelocations.hasKinds_locate _ _ _, DynamicEntry.isFirst_iff.mpr rfl, ?_, ?_⟩
  · intro unnamed
    change slot? _ (DynamicRelocations.locate space layout _).plt? name = none
    rw [DynamicRelocations.plt?_eq_none unnamed]
    rfl
  · intro other agree
    exact ⟨agree.gotEntry?_eq, agree.gotPltEntry?_eq⟩

/-- A 64-bit array with the symbols `a` and `b` and three relocations: one without a symbol, one of
`a` and one of `b`. -/
def thirdIsNamed : Bytes :=
  let layout : Layout := ⟨.elf64, .little⟩
  let entries : List DynamicEntry :=
    [⟨DynamicTag.strings, 112⟩, ⟨DynamicTag.stringsSize, 8⟩, ⟨DynamicTag.symbols, 120⟩,
      ⟨DynamicTag.hash, 192⟩, ⟨DynamicTag.rela, 216⟩, ⟨DynamicTag.relaSize, 72⟩]
  let symbol := fun (name : UInt8) => name :: List.replicate 23 0
  let hash : HashTable := ⟨#[1], #[0, 2, 0]⟩
  let relocations : List Relocation :=
    [⟨0x20, 0, 8, 0x70⟩, ⟨0x28, 1, 6, 0⟩, ⟨0x30, 2, 6, 4⟩]
  (DynamicEntry.encodeArray layout entries 0 [] ++ [0, 97, 0, 98, 0, 0, 0, 0] ++ symbol 0 ++
    symbol 1 ++ symbol 3 ++ hash.encode .little ++
    relocations.flatMap (Relocation.encode layout .rela)).toArray

/-- A table in which the relocation of `b` is the first, of another type and without its addend. -/
def firstIsNamed : RelocationTable :=
  let layout : Layout := ⟨.elf64, .little⟩
  let relocations : List Relocation := [⟨0x30, 2, 7, 0⟩, ⟨0x28, 1, 6, 0⟩]
  ⟨⟨(relocations.flatMap (Relocation.encode layout .rela)).toArray, 24, layout, by decide⟩, .rela⟩

theorem thirdIsNamed_keeps_slot :
    ∃ linkage, read (.mapped (.ofBytes 0x1000 thirdIsNamed) 0x1000 0x1120 {})
        ⟨.elf64, .little⟩ 0x1000 112 = .ok linkage ∧
      linkage.gotEntry? "b" = some 0x1030 ∧
      gotEntry? { linkage with relocs.rela? := some firstIsNamed } "b" = some 0x1030 ∧
      linkage.gotPltEntry? "b" = none := by
  let space : AddressSpace := .mapped (.ofBytes 0x1000 thirdIsNamed) 0x1000 0x1120 {}
  have told : (read space ⟨.elf64, .little⟩ 0x1000 112).toOption.map (fun linkage =>
      (recordsIn linkage.relocs.rela?, linkage.symbols.carries (Bytes.ofText "b") 1,
        linkage.gotEntry? "b", linkage.relocs.pltKind?)) =
      some ([⟨0x20, 0, 8, 0x70⟩, ⟨0x28, 1, 6, 0⟩, ⟨0x30, 2, 6, 4⟩], false, some 0x1030, none) := by
    decide +kernel
  obtain ⟨linkage, opened, parts⟩ := exists_of_toOption_map told
  obtain ⟨records, rest⟩ := Prod.mk.inj parts
  obtain ⟨foreign, rest⟩ := Prod.mk.inj rest
  obtain ⟨slot, unnamed⟩ := Prod.mk.inj rest
  have edited : recordsIn (some firstIsNamed) = [⟨0x30, 2, 7, 0⟩, ⟨0x28, 1, 6, 0⟩] := by
    decide +kernel
  have idle : ∀ offset typeCode addend,
      ¬ linkage.Concerns "b" ⟨offset, 1, typeCode, addend⟩ := by
    intro offset typeCode addend concerned
    exact Bool.false_ne_true (foreign.symm.trans (concerns_iff.mp concerned).2)
  have agree : AgreesFor "b" linkage { linkage with relocs.rela? := some firstIsNamed } := {
    domain := rfl
    strings? := rfl
    symbols? := rfl
    rela := by
      rw [records, edited]
      exact .left (fun concerned => concerned.1 rfl) (.left (idle _ _ _)
        (.keep rfl rfl (.right (idle _ _ _) .nil)))
    rel := Relocation.AgreeBut.refl _
    plt := Relocation.AgreeBut.refl _ }
  obtain ⟨-, -, -, -, noPlt, same⟩ := slots_of_first_relocations opened "b"
  exact ⟨linkage, opened, slot, (same _ agree).1.symm.trans slot, noPlt unnamed⟩

end Linkage
end ElfLens
