import ElfLens.Proofs.SlotSearch

set_option autoImplicit false

namespace ElfLens

namespace Bytes

/-- Behind the strings in front of it, a stored string stands with a zero behind it. -/
theorem exists_stringTable_eq {names : List (List UInt8)} {index : Nat} {name : List UInt8}
    (stored : names[index]? = some name) :
    ∃ rest, stringTable names = stringTable (names.take index) ++ (name ++ 0 :: rest) := by
  obtain ⟨inside, rfl⟩ := List.getElem?_eq_some_iff.mp stored
  refine ⟨(names.drop (index + 1)).flatMap (· ++ [0]), ?_⟩
  conv_lhs => rw [← List.take_append_drop index names, List.drop_eq_getElem_cons inside]
  simp only [stringTable, List.flatMap_append, List.flatMap_cons, List.append_assoc,
    List.cons_append, List.nil_append]

/-- Reading from some place in a stored string on ends at the zero behind the string. -/
theorem cstring?_stringTable {names : List (List UInt8)} {index : Nat} {name : List UInt8}
    (stored : names[index]? = some name) (nonzero : 0 ∉ name) {skipped : Nat}
    (inside : skipped ≤ name.length) :
    cstring? (stringTable names).toArray (stringOffset names index + skipped) =
      some (name.drop skipped).toArray := by
  obtain ⟨rest, split⟩ := exists_stringTable_eq stored
  have tail : ∀ byte ∈ name.drop skipped, decide (byte ≠ 0) = true := by
    intro byte listed
    apply decide_eq_true
    rintro rfl
    exact nonzero (List.mem_of_mem_drop listed)
  have behind : (stringTable names).drop (stringOffset names index + skipped) =
      name.drop skipped ++ 0 :: rest := by
    rw [split, stringOffset, List.drop_length_add_append, List.drop_append_of_le_length inside]
  apply cstring?_eq_some_iff.mpr
  refine ⟨?_, ?_⟩
  · rw [List.size_toArray, split, stringOffset, List.length_append, List.length_append]
    omega
  · rw [List.toList_toArray, List.toList_toArray, behind, List.takeWhile_append_of_pos tail,
      List.takeWhile_cons_of_neg (by decide), List.append_nil]

theorem cstring_eq_ok_iff {table string : Bytes} {offset : Nat} :
    table.cstring offset = .ok string ↔ table.cstring? offset = some string := by
  unfold cstring
  cases table.cstring? offset with
  | none => exact ⟨fun read => (nomatch read), fun found => (nomatch found)⟩
  | some other => rw [Except.ok.injEq, Option.some.injEq]

/-- A text is read exactly if the bytes of the string are those of the text. -/
theorem ctext_eq_ok_iff {table : Bytes} {offset : Nat} {text : String} :
    table.ctext offset = .ok text ↔ table.cstring offset = .ok (ofText text) := by
  rw [cstring_eq_ok_iff]
  constructor
  · intro read
    unfold ctext at read
    split at read
    · rename_i other spelled
      cases read
      obtain ⟨bytes, found, valid⟩ := Option.bind_eq_some_iff.mp spelled
      rw [found, eq_ofText_of_text? valid]
    · cases read
  · exact ctext_of_cstring?

/-- The only fault that the reader of texts has names the offset. -/
theorem ctext_eq_error {table : Bytes} {offset : Nat}
    (unread : ∀ text, table.ctext offset ≠ .ok text) :
    table.ctext offset = .error (.badString offset) := by
  unfold ctext at unread ⊢
  split at unread
  · rename_i text spelled
    exact absurd rfl (unread text)
  · rfl

/-- What the reader of texts makes of an offset, told by what the reader of bytes makes of it. -/
structure ReadersAgreeAt (table : Bytes) (offset : Nat) : Prop where
  text : ∀ text, table.ctext offset = .ok text ↔ table.cstring offset = .ok (ofText text)
  valid : ∀ bytes, table.cstring offset = .ok bytes → ByteArray.IsValidUTF8 ⟨bytes⟩ →
    ∃ text, ofText text = bytes ∧ table.ctext offset = .ok text
  invalid : ∀ bytes, table.cstring offset = .ok bytes → ¬ ByteArray.IsValidUTF8 ⟨bytes⟩ →
    table.ctext offset = .error (.badString offset)
  missing : ∀ fault, table.cstring offset = .error fault → table.ctext offset = .error fault

theorem readersAgreeAt (table : Bytes) (offset : Nat) : table.ReadersAgreeAt offset where
  text text := ctext_eq_ok_iff
  valid bytes read spelled := by
    refine ⟨⟨⟨bytes⟩, spelled⟩, rfl, ?_⟩
    exact ctext_eq_ok_iff.mpr read
  invalid bytes read misspelled := by
    apply ctext_eq_error
    intro text spelled
    have same := ctext_eq_ok_iff.mp spelled
    rw [read, Except.ok.injEq] at same
    rw [same] at misspelled
    exact misspelled text.isValidUTF8
  missing fault refused := by
    obtain ⟨-, rfl⟩ := cstring_eq_error_iff.mp refused
    apply ctext_eq_error
    intro text spelled
    rw [ctext_eq_ok_iff, refused] at spelled
    cases spelled

end Bytes

namespace StaticSymbols

variable {statics : StaticSymbols} {text : String}

/-- The symbol at an index can be read, it has a name, and the string stored for it is the text. -/
structure IsNamed (statics : StaticSymbols) (text : String) (index : Nat) (symbol : Symbol) :
    Prop where
  stands : statics.table.symbol? index = some symbol
  named : symbol.nameOffset ≠ 0
  spelled : statics.strings.cstring symbol.nameOffset.toNat = .ok (Bytes.ofText text)

theorem carries_iff_spelled {symbol : Symbol} :
    statics.carries (Bytes.ofText text) symbol = true ↔ symbol.nameOffset ≠ 0 ∧
      statics.strings.cstring symbol.nameOffset.toNat = .ok (Bytes.ofText text) := by
  rw [carries, decide_eq_true_eq, Bytes.cstring_eq_ok_iff]

theorem isNamed_iff {index : Nat} {symbol : Symbol} :
    statics.IsNamed text index symbol ↔ statics.table.symbol? index = some symbol ∧
      statics.carries (Bytes.ofText text) symbol = true := by
  rw [carries_iff_spelled]
  constructor
  · rintro ⟨stands, named, spelled⟩
    exact ⟨stands, named, spelled⟩
  · rintro ⟨stands, named, spelled⟩
    exact ⟨stands, named, spelled⟩

theorem IsNamed.index_eq {index : Nat} {symbol : Symbol}
    (named : statics.IsNamed text index symbol) : symbol.index = index :=
  Table.index_of_symbol? named.stands

theorem IsNamed.name_eq {index : Nat} {symbol : Symbol}
    (named : statics.IsNamed text index symbol) : statics.name symbol = .ok text :=
  Bytes.ctext_eq_ok_iff.mpr named.spelled

/-- The symbol found is the first of those with the name. -/
theorem find?_eq_some_iff {symbol : Symbol} :
    statics.find? text = some symbol ↔ statics.IsNamed text symbol.index symbol ∧
      ∀ earlier < symbol.index, ∀ other, ¬ statics.IsNamed text earlier other := by
  rw [find?, symbols, find?_filterMap_range_eq_some_iff]
  constructor
  · rintro ⟨index, -, stands, carried, before⟩
    have named : statics.IsNamed text index symbol := isNamed_iff.mpr ⟨stands, carried⟩
    rw [named.index_eq]
    refine ⟨named, ?_⟩
    intro earlier below other also
    obtain ⟨known, again⟩ := isNamed_iff.mp also
    rw [before earlier below other known] at again
    cases again
  · rintro ⟨named, before⟩
    obtain ⟨stands, carried⟩ := isNamed_iff.mp named
    refine ⟨symbol.index, Table.lt_size_of_decode? stands, stands, carried, ?_⟩
    intro earlier below other known
    cases again : statics.carries (Bytes.ofText text) other with
    | false => rfl
    | true => exact absurd (isNamed_iff.mpr ⟨known, again⟩) (before earlier below other)

theorem find?_eq_none_iff :
    statics.find? text = none ↔ ∀ index symbol, ¬ statics.IsNamed text index symbol := by
  rw [find?, symbols, List.find?_eq_none]
  constructor
  · intro missed index symbol named
    obtain ⟨stands, carried⟩ := isNamed_iff.mp named
    have listed := List.mem_range.mpr (Table.lt_size_of_decode? stands)
    exact missed symbol (List.mem_filterMap.mpr ⟨index, listed, stands⟩) carried
  · intro unnamed symbol listed carried
    obtain ⟨index, -, stands⟩ := List.mem_filterMap.mp listed
    exact unnamed index symbol (isNamed_iff.mpr ⟨stands, carried⟩)

/-- No symbol in front of one with the name hides it, if it has no name or another one, or none
that can be read. -/
theorem IsNamed.find?_eq {index : Nat} {symbol : Symbol}
    (named : statics.IsNamed text index symbol)
    (before : ∀ earlier < index, ∀ other, statics.table.symbol? earlier = some other →
      other.nameOffset = 0 ∨ statics.name other ≠ .ok text) :
    statics.find? text = some symbol := by
  apply find?_eq_some_iff.mpr
  rw [named.index_eq]
  refine ⟨named, ?_⟩
  intro earlier below other also
  rcases before earlier below other also.stands with unnamed | different
  · exact also.named unnamed
  · exact different also.name_eq

/-- Of names without a zero that are stored with one behind each, every name is read at its offset,
what is left of it at an offset inside, nothing at the end of the table, and past that an offset is
refused. In any table the reader of texts gives the string that the reader of bytes does if it is
well spelled, and refuses the offset otherwise. The symbol found by a name in any table is the first
that can be read, has a name and has this one; it then has the name when it is asked, and stands at
its own index. Symbols whose names cannot be read hide none behind them. -/
theorem names_read_and_found :
    (∀ names : List (List UInt8), (∀ name ∈ names, 0 ∉ name) →
      let table : Bytes := (Bytes.stringTable names).toArray
      (∀ index name, names[index]? = some name → ∀ skipped ≤ name.length,
        table.cstring (Bytes.stringOffset names index + skipped) =
          .ok (name.drop skipped).toArray) ∧
      table.cstring table.size = .ok #[] ∧
      ∀ offset, table.size < offset → table.cstring offset = .error (.badString offset)) ∧
    (∀ (table : Bytes) (offset : Nat), table.ReadersAgreeAt offset) ∧
    ∀ (statics : StaticSymbols) (text : String),
      (∀ symbol, statics.find? text = some symbol ↔
        statics.IsNamed text symbol.index symbol ∧
          ∀ earlier < symbol.index, ∀ other, ¬ statics.IsNamed text earlier other) ∧
      (statics.find? text = none ↔ ∀ index symbol, ¬ statics.IsNamed text index symbol) ∧
      (∀ symbol, statics.find? text = some symbol →
        statics.name symbol = .ok text ∧ statics.table.symbol? symbol.index = some symbol) ∧
      ∀ index symbol, statics.IsNamed text index symbol →
        (∀ earlier < index, ∀ other, statics.table.symbol? earlier = some other →
          other.nameOffset = 0 ∨ statics.name other ≠ .ok text) →
        statics.find? text = some symbol := by
  refine ⟨?_, Bytes.readersAgreeAt, ?_⟩
  · intro names nonzero table
    refine ⟨?_, ?_, ?_⟩
    · intro index name stored skipped inside
      have listed : name ∈ names := List.mem_of_getElem? stored
      exact Bytes.cstring_eq_ok_iff.mpr
        (Bytes.cstring?_stringTable stored (nonzero name listed) inside)
    · exact Bytes.cstring_eq_ok_iff.mpr (Bytes.cstring?_size table)
    · intro offset past
      exact Bytes.cstring_eq_error_iff.mpr ⟨past, rfl⟩
  · intro statics text
    refine ⟨fun symbol => find?_eq_some_iff, find?_eq_none_iff, ?_, ?_⟩
    · intro symbol found
      have named := (find?_eq_some_iff.mp found).1
      exact ⟨named.name_eq, named.stands⟩
    · intro index symbol named before
      exact named.find?_eq before

/-- Symbols in front of the ones named `ab` whose names are missing, misspelled or out of reach, and
one behind them whose name nothing ends. -/
def damagedNames : StaticSymbols :=
  let symbol := fun (nameOffset : UInt8) => nameOffset :: List.replicate 15 0
  let records := (symbol 0 ++ symbol 4 ++ symbol 100 ++ symbol 1 ++ symbol 1 ++ symbol 6).toArray
  ⟨⟨records, 16, ⟨.elf32, .little⟩, Nat.succ_pos 15⟩, #[0, 97, 98, 0, 255, 0, 98]⟩

theorem damagedNames_found :
    (let table : Bytes := (Bytes.stringTable [[97, 98], [99]]).toArray
    table.cstring 1 = .ok #[97, 98] ∧ table.cstring 2 = .ok #[98] ∧
      table.cstring 7 = .error (.badString 7)) ∧
    damagedNames.strings.ctext 4 = .error (.badString 4) ∧
    (∃ symbol, damagedNames.find? "ab" = some symbol ∧ symbol.index = 3 ∧
      damagedNames.name symbol = .ok "ab") ∧
    ∃ symbol, damagedNames.find? "b" = some symbol ∧ symbol.index = 5 ∧
      damagedNames.name symbol = .ok "b" := by
  obtain ⟨stored, agreeing, lookup⟩ := names_read_and_found
  obtain ⟨reads, -, refused⟩ := stored [[97, 98], [99]] (by decide)
  have first : ∀ text index,
      (∃ symbol ∈ damagedNames.table.symbol? index,
        damagedNames.carries (Bytes.ofText text) symbol = true) →
      (∀ earlier < index, ∀ other ∈ damagedNames.table.symbol? earlier,
        other.nameOffset = 0 ∨ (damagedNames.name other).toOption ≠ some text) →
      ∃ symbol, damagedNames.find? text = some symbol ∧ symbol.index = index ∧
        damagedNames.name symbol = .ok text := by
    rintro text index ⟨symbol, stands, carried⟩ hidden
    obtain ⟨-, -, holds, first⟩ := lookup damagedNames text
    have found : damagedNames.find? text = some symbol := by
      apply first index symbol (isNamed_iff.mpr ⟨stands, carried⟩)
      intro earlier below other known
      exact (hidden earlier below other known).imp_right fun different named =>
        different (congrArg Except.toOption named)
    exact ⟨symbol, found, Table.index_of_symbol? stands, (holds symbol found).1⟩
  refine ⟨⟨?_, ?_, ?_⟩, ?_, ?_, ?_⟩
  · exact reads 0 [97, 98] rfl 0 (by decide)
  · exact reads 0 [97, 98] rfl 1 (by decide)
  · exact refused 7 (by decide)
  · have read : damagedNames.strings.cstring? 4 = some #[255] := by decide +kernel
    exact (agreeing damagedNames.strings 4).invalid #[255] (Bytes.cstring_eq_ok_iff.mpr read)
      (by decide +kernel)
  · exact first "ab" 3 (by decide +kernel) (by decide +kernel)
  · exact first "b" 5 (by decide +kernel) (by decide +kernel)

end StaticSymbols
end ElfLens
