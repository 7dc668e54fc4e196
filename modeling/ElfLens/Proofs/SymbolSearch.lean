import ElfLens.Dynamic.Linkage
import ElfLens.Proofs.ChainWalk
import ElfLens.Proofs.TableReading

set_option autoImplicit false

namespace ElfLens

theorem Bytes.text?_ofText (text : String) : (Bytes.ofText text).text? = some text := by
  unfold Bytes.text? Bytes.ofText String.fromUTF8?
  rw [dif_pos (show ByteArray.IsValidUTF8 ⟨text.toUTF8.data⟩ from text.isValidUTF8)]
  rfl

theorem Bytes.ctext_of_cstring? {table : Bytes} {offset : Nat} {text : String}
    (found : table.cstring? offset = some (Bytes.ofText text)) : table.ctext offset = .ok text := by
  rw [ctext, found, Option.bind_some, text?_ofText]

theorem Table.index_of_symbol? {table : Table} {index : Nat} {symbol : Symbol}
    (found : table.symbol? index = some symbol) : symbol.index = index := by
  obtain ⟨record, -, decoded⟩ := decode?_eq_some_iff.mp found
  have ensured := FieldReader.property_of_decode (Symbol.index_of_fields table.layout index) decoded
  exact ensured

namespace DynamicSymbols

/-- The symbol at an index is on the chain that the hash of a name starts. -/
def Reaches (tables : DynamicSymbols) (name : Bytes) (index : Nat) : Prop :=
  ∃ hash link steps, tables.hash? = some hash ∧ hash.onChain? name steps = some link ∧
    link.toNat = index

theorem index_of_symbol? {tables : DynamicSymbols} {index : Nat} {symbol : Symbol}
    (found : tables.symbol? index = some symbol) : symbol.index = index := by
  obtain ⟨table, -, inside⟩ := Option.bind_eq_some_iff.mp found
  exact Table.index_of_symbol? inside

theorem carries_iff {tables : DynamicSymbols} {name : Bytes} {index : Nat} :
    tables.carries name index = true ↔
      ∃ strings symbol, tables.strings? = some strings ∧ tables.symbol? index = some symbol ∧
        strings.cstring? symbol.nameOffset.toNat = some name := by
  simp only [carries, nameAt?, decide_eq_true_eq, bind, Option.bind_eq_some_iff]
  constructor
  · rintro ⟨strings, present, symbol, found, spelled⟩
    exact ⟨strings, symbol, present, found, spelled⟩
  · rintro ⟨strings, symbol, present, found, spelled⟩
    exact ⟨strings, present, symbol, found, spelled⟩

theorem name_of_carries {tables : DynamicSymbols} {text : String} {index : Nat} {symbol : Symbol}
    (carried : tables.carries (Bytes.ofText text) index = true)
    (found : tables.symbol? index = some symbol) : tables.name symbol = .ok text := by
  obtain ⟨strings, other, present, stands, spelled⟩ := carries_iff.mp carried
  obtain rfl : symbol = other := Option.some.inj (found.symm.trans stands)
  rw [name, stringAt, present, UInt32.toNat_toUInt64]
  exact Bytes.ctext_of_cstring? spelled

theorem Reaches.bounds {tables : DynamicSymbols} {name : Bytes} {index : Nat}
    (reached : tables.Reaches name index) : 0 < index ∧ index < tables.count := by
  obtain ⟨hash, link, steps, present, walked, rfl⟩ := reached
  obtain ⟨nonzero, inside⟩ := (hash.isLink_iff link).mp (HashTable.onChain?_isLink walked)
  refine ⟨?_, ?_⟩
  · apply Nat.pos_of_ne_zero
    intro zero
    exact nonzero (UInt32.toNat_inj.mp zero)
  · rw [count, present]
    exact inside

/-- The chains lead nowhere exactly when no symbol on the chain carries the name. -/
theorem find?_eq_none_iff {tables : DynamicSymbols} {text : String} :
    tables.find? text = none ↔
      ∀ index, tables.Reaches (Bytes.ofText text) index →
        tables.carries (Bytes.ofText text) index = false := by
  constructor
  · intro missed index reached
    obtain ⟨hash, link, steps, hashed, walked, rfl⟩ := reached
    cases carried : tables.carries (Bytes.ofText text) link.toNat with
    | false => rfl
    | true =>
        obtain ⟨strings, symbol, named, stands, -⟩ := carries_iff.mp carried
        obtain ⟨table, tabled, -⟩ := Option.bind_eq_some_iff.mp stands
        rw [find?, findHashed, hashed, named, tabled] at missed
        cases looked : hash.lookup (Bytes.ofText text)
            fun index => tables.carries (Bytes.ofText text) index.toNat with
        | none =>
            have refused := (hash.lookup_eq_none_iff _ _).mp looked steps link walked
            rw [carried] at refused
            cases refused
        | some other =>
            obtain ⟨-, -, also⟩ := hash.of_lookup_eq_some _ _ looked
            obtain ⟨_, found, -, present, -⟩ := carries_iff.mp also
            simp only [looked, Option.bind_some, present] at missed
            cases missed
  · intro refused
    rw [find?, findHashed]
    split
    · rfl
    · rfl
    · rfl
    · rename_i hash strings table hashed named tabled
      have looked : (hash.lookup (Bytes.ofText text)
          fun index => tables.carries (Bytes.ofText text) index.toNat) = none := by
        apply (hash.lookup_eq_none_iff _ _).mpr
        intro steps link walked
        exact refused link.toNat ⟨hash, link, steps, hashed, walked, rfl⟩
      simp only [looked]
      rfl

/-- What the chains lead to is on the chain of the name and carries it. -/
theorem of_find?_eq_some {tables : DynamicSymbols} {text : String} {symbol : Symbol}
    (found : tables.find? text = some symbol) :
    tables.Reaches (Bytes.ofText text) symbol.index ∧
      tables.carries (Bytes.ofText text) symbol.index = true ∧
      tables.symbol? symbol.index = some symbol := by
  rw [find?, findHashed] at found
  split at found
  · cases found
  · cases found
  · cases found
  · rename_i hash strings table hashed named tabled
    have led : ((hash.lookup (Bytes.ofText text) fun index =>
        tables.carries (Bytes.ofText text) index.toNat).bind fun index =>
          tables.symbol? index.toNat) = some symbol := found
    obtain ⟨link, looked, stands⟩ := Option.bind_eq_some_iff.mp led
    obtain ⟨⟨steps, walked⟩, -, carried⟩ := hash.of_lookup_eq_some _ _ looked
    have place := index_of_symbol? stands
    rw [place]
    exact ⟨⟨hash, link, steps, hashed, walked, rfl⟩, carried, stands⟩

theorem scan?_eq_none_iff {tables : DynamicSymbols} {text : String} :
    tables.scan? text = none ↔
      ∀ index, index < tables.count → tables.carries (Bytes.ofText text) index = false := by
  rw [scan?]
  constructor
  · intro missed index inside
    cases looked : (List.range tables.count).find? (tables.carries (Bytes.ofText text)) with
    | none =>
        simpa using List.find?_eq_none.mp looked index (List.mem_range.mpr inside)
    | some first =>
        obtain ⟨_, symbol, -, stands, -⟩ := carries_iff.mp (List.find?_some looked)
        rw [looked, Option.bind_some, stands] at missed
        cases missed
  · intro refused
    have looked : (List.range tables.count).find? (tables.carries (Bytes.ofText text)) = none := by
      apply List.find?_eq_none.mpr
      intro index listed
      rw [refused index (List.mem_range.mp listed)]
      exact Bool.false_ne_true
    rw [looked]
    rfl

/-- What the table gives is its first symbol that carries the name. -/
theorem of_scan?_eq_some {tables : DynamicSymbols} {text : String} {symbol : Symbol}
    (found : tables.scan? text = some symbol) :
    symbol.index < tables.count ∧ tables.carries (Bytes.ofText text) symbol.index = true ∧
      tables.symbol? symbol.index = some symbol ∧
      ∀ index, index < symbol.index → tables.carries (Bytes.ofText text) index = false := by
  obtain ⟨first, looked, stands⟩ := Option.bind_eq_some_iff.mp found
  obtain ⟨carried, listed, earlier⟩ := List.find?_range_eq_some.mp looked
  rw [index_of_symbol? stands]
  refine ⟨List.mem_range.mp listed, carried, stands, ?_⟩
  intro index before
  simpa using earlier index before

theorem exists_scan?_of_carries {tables : DynamicSymbols} {text : String} {index : Nat}
    (inside : index < tables.count)
    (carried : tables.carries (Bytes.ofText text) index = true) :
    ∃ first, tables.scan? text = some first ∧ first.index ≤ index ∧
      tables.name first = .ok text := by
  cases found : tables.scan? text with
  | none =>
      rw [scan?_eq_none_iff.mp found index inside] at carried
      cases carried
  | some first =>
      obtain ⟨-, also, stands, earlier⟩ := of_scan?_eq_some found
      refine ⟨first, rfl, ?_, name_of_carries also stands⟩
      apply Nat.le_of_not_lt
      intro before
      rw [earlier index before] at carried
      cases carried

/-- A symbol on the chain of its name makes the chains lead to one. -/
theorem exists_find?_of_reaches {tables : DynamicSymbols} {text : String} {index : Nat}
    (reached : tables.Reaches (Bytes.ofText text) index)
    (carried : tables.carries (Bytes.ofText text) index = true) :
    ∃ symbol, tables.find? text = some symbol := by
  cases found : tables.find? text with
  | some symbol => exact ⟨symbol, rfl⟩
  | none =>
      rw [find?_eq_none_iff.mp found index reached] at carried
      cases carried

end DynamicSymbols

/-- Whatever the tables hold, a symbol that the hash chains lead to carries the name and is found
along the table or behind a symbol that is. Where the chain of a name has every symbol of it, and
the reserved first symbol is not of it, both searches find one or neither does, and both find the
same if there is only one. -/
theorem Linkage.find?_agrees_with_scan? (linkage : Linkage) (text : String) :
    (∀ symbol, linkage.symbols.find? text = some symbol →
      0 < symbol.index ∧ symbol.index < linkage.symbols.count ∧
      linkage.symbols.name symbol = .ok text ∧
      ∃ first, linkage.symbols.scan? text = some first ∧ first.index ≤ symbol.index ∧
        linkage.symbols.name first = .ok text) ∧
    ((∀ index, 0 < index → index < linkage.symbols.count →
        linkage.symbols.carries (Bytes.ofText text) index = true →
        linkage.symbols.Reaches (Bytes.ofText text) index) →
      linkage.symbols.carries (Bytes.ofText text) 0 = false →
      ((linkage.symbols.find? text).isSome ↔ (linkage.symbols.scan? text).isSome) ∧
      ((∀ i j, i < linkage.symbols.count → j < linkage.symbols.count →
          linkage.symbols.carries (Bytes.ofText text) i = true →
          linkage.symbols.carries (Bytes.ofText text) j = true → i = j) →
        linkage.symbols.find? text = linkage.symbols.scan? text)) := by
  have sound : ∀ symbol, linkage.symbols.find? text = some symbol →
      ∃ first, linkage.symbols.scan? text = some first ∧ first.index ≤ symbol.index ∧
        linkage.symbols.name first = .ok text := by
    intro symbol found
    obtain ⟨reached, carried, -⟩ := DynamicSymbols.of_find?_eq_some found
    exact DynamicSymbols.exists_scan?_of_carries reached.bounds.2 carried
  refine ⟨?_, ?_⟩
  · intro symbol found
    obtain ⟨reached, carried, stands⟩ := DynamicSymbols.of_find?_eq_some found
    exact ⟨reached.bounds.1, reached.bounds.2, DynamicSymbols.name_of_carries carried stands,
      sound symbol found⟩
  · intro complete reserved
    have same : (linkage.symbols.find? text).isSome ↔ (linkage.symbols.scan? text).isSome := by
      rw [Option.isSome_iff_exists, Option.isSome_iff_exists]
      constructor
      · rintro ⟨symbol, found⟩
        obtain ⟨first, scanned, -⟩ := sound symbol found
        exact ⟨first, scanned⟩
      · rintro ⟨first, scanned⟩
        obtain ⟨inside, carried, -⟩ := DynamicSymbols.of_scan?_eq_some scanned
        have behind : 0 < first.index := by
          apply Nat.pos_of_ne_zero
          intro zero
          rw [zero, reserved] at carried
          cases carried
        have reached := complete first.index behind inside carried
        exact DynamicSymbols.exists_find?_of_reaches reached carried
    refine ⟨same, ?_⟩
    intro unique
    cases found : linkage.symbols.find? text with
    | none =>
        cases scanned : linkage.symbols.scan? text with
        | none => rfl
        | some first => simp [found, scanned] at same
    | some symbol =>
        cases scanned : linkage.symbols.scan? text with
        | none => simp [found, scanned] at same
        | some first =>
            obtain ⟨reached, carried, stands⟩ := DynamicSymbols.of_find?_eq_some found
            obtain ⟨inside, also, other, -⟩ := DynamicSymbols.of_scan?_eq_some scanned
            have place := unique _ _ reached.bounds.2 inside carried also
            rw [← stands, ← other, place]

/-- Two named symbols on one chain whose last link leads back to itself. -/
def Linkage.twoOnCircle : Linkage :=
  let strings := [0, 97, 0, 98]
  let symbol := fun (name : UInt8) => name :: List.replicate 15 0
  let hash := [1, 3, 1, 0, 2, 2].flatMap fun (word : UInt8) => [word, 0, 0, 0]
  let bytes := (strings ++ symbol 0 ++ symbol 1 ++ symbol 3 ++ hash).toArray
  ofEntries (.mapped (.ofBytes 0x1000 bytes) 0x1000 0x104c {}) ⟨.elf32, .little⟩ 0 0
    [⟨DynamicTag.strings, 0⟩, ⟨DynamicTag.stringsSize, 4⟩, ⟨DynamicTag.symbols, 4⟩,
      ⟨DynamicTag.hash, 52⟩]

theorem Linkage.find?_agrees_on_circle :
    (∃ symbol, twoOnCircle.symbols.find? "b" = some symbol ∧ symbol.index < 3 ∧
      twoOnCircle.symbols.name symbol = .ok "b") ∧
    twoOnCircle.symbols.find? "b" = twoOnCircle.symbols.scan? "b" := by
  have size : twoOnCircle.symbols.count = 3 := by decide +kernel
  have hashed : twoOnCircle.symbols.hash? = some ⟨#[1], #[0, 2, 2]⟩ := by decide +kernel
  have only : ∀ i < 3, twoOnCircle.symbols.carries (Bytes.ofText "b") i = true → i = 2 := by
    decide +kernel
  obtain ⟨sound, complete⟩ := find?_agrees_with_scan? twoOnCircle "b"
  rw [size] at sound complete
  refine ⟨?_, ?_⟩
  · obtain ⟨symbol, found⟩ : ∃ symbol, twoOnCircle.symbols.find? "b" = some symbol :=
      Option.isSome_iff_exists.mp (by decide +kernel)
    obtain ⟨-, bound, named, -⟩ := sound symbol found
    exact ⟨symbol, found, bound, named⟩
  · apply (complete ?_ (by decide +kernel)).2
    · intro i j first second carried also
      rw [only i first carried, only j second also]
    · intro index _ inside carried
      rw [only index inside carried]
      exact ⟨_, 2, 1, hashed, by decide +kernel, rfl⟩

end ElfLens
