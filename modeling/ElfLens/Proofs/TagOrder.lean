import ElfLens.Proofs.Displacement

set_option autoImplicit false

namespace ElfLens

/-- A word other than zero, which stands for one that is missing. -/
def Word.present? (word : UInt64) : Option UInt64 := if word = 0 then none else some word

theorem Word.present?_inj {a b : UInt64} : present? a = present? b ↔ a = b := by
  unfold present?
  by_cases first : a = 0
  · by_cases second : b = 0
    · simp [first, second]
    · simp [first, second, eq_comm]
  · by_cases second : b = 0
    · simp [first, second]
    · simp [first, second]

namespace DynamicEntry

variable {α : Type} {use : UInt64 → Option α} {tag : Int64} {seen entries : List DynamicEntry}

/-- What use there is of the values of a tag: that of the first one that is of any. -/
def IsFirst (use : UInt64 → Option α) (tag : Int64) (entries : List DynamicEntry) :
    Option α → Prop
  | some found =>
    ∃ front entry back, entries = front ++ entry :: back ∧ entry.tag = tag ∧
      use entry.value = some found ∧ ∀ other ∈ front, other.tag = tag → use other.value = none
  | none => ∀ entry ∈ entries, entry.tag = tag → use entry.value = none

theorem findSome?_valuesOf (use : UInt64 → Option α) (tag : Int64) (entries : List DynamicEntry) :
    (valuesOf tag entries).findSome? use =
      entries.findSome? fun entry => if entry.tag = tag then use entry.value else none := by
  induction entries with
  | nil => rfl
  | cons entry entries ih =>
      rw [List.findSome?_cons, ← ih, valuesOf, List.filter_cons]
      by_cases same : entry.tag = tag
      · rw [if_pos (decide_eq_true same), if_pos same, List.map_cons, List.findSome?_cons]
        rfl
      · rw [if_neg (by simpa using same), if_neg same]
        rfl

/-- The first use is the one found by a search through the values. -/
theorem isFirst_iff {found : Option α} :
    IsFirst use tag entries found ↔ (valuesOf tag entries).findSome? use = found := by
  rw [findSome?_valuesOf]
  cases found with
  | none =>
      rw [List.findSome?_eq_none_iff]
      simp only [IsFirst, ite_eq_right_iff]
  | some x =>
      rw [List.findSome?_eq_some_iff]
      simp only [IsFirst, ite_eq_right_iff, Option.ite_none_right_eq_some, and_assoc]

theorem IsFirst.append_of_some {x : α} (first : IsFirst use tag seen (some x))
    (more : List DynamicEntry) : IsFirst use tag (seen ++ more) (some x) := by
  obtain ⟨front, entry, back, rfl, rest⟩ := first
  refine ⟨front, entry, back ++ more, ?_, rest⟩
  rw [List.append_assoc, List.cons_append]

theorem IsFirst.append_of_none (unused : IsFirst use tag seen none) (entry : DynamicEntry) :
    IsFirst use tag (seen ++ [entry]) (if entry.tag = tag then use entry.value else none) := by
  by_cases same : entry.tag = tag
  · rw [if_pos same]
    cases used : use entry.value with
    | some x => exact ⟨seen, entry, [], rfl, same, used, unused⟩
    | none =>
        intro other listed named
        rcases List.mem_append.mp listed with earlier | last
        · exact unused other earlier named
        · rwa [List.mem_singleton.mp last]
  · rw [if_neg same]
    intro other listed named
    rcases List.mem_append.mp listed with earlier | last
    · exact unused other earlier named
    · rw [List.mem_singleton.mp last] at named
      exact absurd named same

theorem present?_firstNonzero (meaning : UInt64 → UInt64) (values : List UInt64) :
    Word.present? (firstNonzero (values.map meaning)) =
      values.findSome? fun value => Word.present? (meaning value) := by
  induction values with
  | nil => rfl
  | cons value values ih =>
      rw [List.map_cons, List.findSome?_cons, ← ih, firstNonzero, List.find?_cons]
      by_cases zero : meaning value = 0
      · simp [zero, Word.present?, firstNonzero]
      · simp [zero, Word.present?]

/-- Tags that neither list has carry the same values in both, which are none. -/
theorem valuesOf_eq_of_listed {first second : List DynamicEntry}
    (same : ((first ++ second).map (·.tag)).all fun tag => valuesOf tag first = valuesOf tag second)
    (tag : Int64) : valuesOf tag first = valuesOf tag second := by
  by_cases listed : tag ∈ (first ++ second).map (·.tag)
  · exact of_decide_eq_true (List.all_eq_true.mp same tag listed)
  · have nowhere : ∀ entries, entries ⊆ first ++ second → valuesOf tag entries = [] := by
      intro entries part
      rw [valuesOf, List.map_eq_nil_iff, List.filter_eq_nil_iff]
      intro entry member
      simp only [decide_eq_true_eq]
      rintro rfl
      exact listed (List.mem_map_of_mem (part member))
    rw [nowhere first (List.subset_append_left ..), nowhere second (List.subset_append_right ..)]

/-- The first entry of a tag has the first of the values of the tag. -/
theorem find?_eq_head?_valuesOf (tag : Int64) (entries : List DynamicEntry) :
    entries.find? (·.tag = tag) = (valuesOf tag entries).head?.map (DynamicEntry.mk tag) := by
  rw [valuesOf, List.head?_map, List.head?_filter, Option.map_map]
  cases found : entries.find? (·.tag = tag) with
  | none => rfl
  | some entry =>
      have named : entry.tag = tag := by simpa using List.find?_some found
      rw [Option.map_some, Function.comp_apply, ← named]

end DynamicEntry

/-- What was noted of the entries so far: for every tag a word, zero as long as there is none of
use, and the kind of the relocations of the PLT. -/
structure DynamicNotes where
  word : Int64 → UInt64
  pltKind? : Option RelocationKind

namespace DynamicNotes

open DynamicEntry (IsFirst isFirst_iff)

def blank : DynamicNotes := ⟨fun _ => 0, none⟩

/-- The word that a value of a tag stands for: pointers are resolved, all else is taken as it is. -/
def meaning (domain : AddressDomain) (tag : Int64) (value : UInt64) : UInt64 :=
  if tag ∈ DynamicTag.pointers then domain.resolve value else value

/-- Takes note of one more entry, if there is still nothing of use from its tag. -/
def note (domain : AddressDomain) (notes : DynamicNotes) (entry : DynamicEntry) :
    DynamicNotes where
  word tag :=
    if entry.tag = tag ∧ notes.word tag = 0 then meaning domain tag entry.value
    else notes.word tag
  pltKind? :=
    if entry.tag = DynamicTag.pltRelocationKind ∧ notes.pltKind? = none then
      RelocationKind.ofTag? entry.value
    else notes.pltKind?

def pass (domain : AddressDomain) (entries : List DynamicEntry) : DynamicNotes :=
  entries.foldl (note domain) blank

/-- Of every tag, the notes have the first word of use among the entries. -/
structure AreFirst (domain : AddressDomain) (entries : List DynamicEntry) (notes : DynamicNotes) :
    Prop where
  word : ∀ tag, IsFirst (fun value => Word.present? (meaning domain tag value)) tag entries
    (Word.present? (notes.word tag))
  pltKind? : IsFirst RelocationKind.ofTag? DynamicTag.pltRelocationKind entries notes.pltKind?

variable {domain : AddressDomain} {seen : List DynamicEntry} {notes : DynamicNotes}

theorem areFirst_note (first : notes.AreFirst domain seen) (entry : DynamicEntry) :
    (notes.note domain entry).AreFirst domain (seen ++ [entry]) where
  word tag := by
    have before := first.word tag
    by_cases missing : notes.word tag = 0
    · have unnoted : Word.present? (notes.word tag) = none := by rw [missing]; rfl
      rw [unnoted] at before
      have after := before.append_of_none entry
      have noted : Word.present? ((notes.note domain entry).word tag) =
          if entry.tag = tag then Word.present? (meaning domain tag entry.value) else none := by
        simp only [note, missing, and_true]
        split
        · rfl
        · rfl
      rwa [noted]
    · have kept : (notes.note domain entry).word tag = notes.word tag :=
        if_neg fun both => missing both.2
      have noted : Word.present? (notes.word tag) = some (notes.word tag) := if_neg missing
      rw [noted] at before
      rw [kept, noted]
      exact before.append_of_some [entry]
  pltKind? := by
    have before := first.pltKind?
    cases known : notes.pltKind? with
    | none =>
        rw [known] at before
        have noted : (notes.note domain entry).pltKind? =
            if entry.tag = DynamicTag.pltRelocationKind then RelocationKind.ofTag? entry.value
            else none := by
          simp only [note, known, and_true]
        rw [noted]
        exact before.append_of_none entry
    | some kind =>
        rw [known] at before
        have kept : (notes.note domain entry).pltKind? = some kind := by
          simp only [note, known, reduceCtorEq, and_false, ↓reduceIte]
        rw [kept]
        exact before.append_of_some [entry]

theorem areFirst_foldl (first : notes.AreFirst domain seen) (entries : List DynamicEntry) :
    (entries.foldl (note domain) notes).AreFirst domain (seen ++ entries) := by
  induction entries generalizing seen notes with
  | nil => rwa [List.append_nil]
  | cons entry entries ih =>
      have next := ih (areFirst_note first entry)
      rwa [List.append_assoc, List.singleton_append] at next

/-- A pass finds the first word of use of every tag. -/
theorem areFirst_pass (domain : AddressDomain) (entries : List DynamicEntry) :
    (pass domain entries).AreFirst domain entries := by
  have blank : blank.AreFirst domain [] :=
    ⟨fun _ entry listed => absurd listed List.not_mem_nil,
      fun entry listed => absurd listed List.not_mem_nil⟩
  exact areFirst_foldl blank entries

theorem word_pass (domain : AddressDomain) (entries : List DynamicEntry) (tag : Int64) :
    (pass domain entries).word tag =
      DynamicEntry.firstNonzero ((DynamicEntry.valuesOf tag entries).map (meaning domain tag)) := by
  apply Word.present?_inj.mp
  rw [DynamicEntry.present?_firstNonzero]
  exact (isFirst_iff.mp ((areFirst_pass domain entries).word tag)).symm

theorem word_pass_of_pointer {tag : Int64} (pointing : tag ∈ DynamicTag.pointers)
    (domain : AddressDomain) (entries : List DynamicEntry) :
    (pass domain entries).word tag = DynamicEntry.addressOf domain tag entries := by
  have resolved : meaning domain tag = domain.resolve := funext fun _ => if_pos pointing
  rw [word_pass, resolved]
  rfl

theorem word_pass_of_number {tag : Int64} (plain : tag ∉ DynamicTag.pointers)
    (domain : AddressDomain) (entries : List DynamicEntry) :
    (pass domain entries).word tag = DynamicEntry.sizeOf tag entries := by
  have same : meaning domain tag = id := funext fun _ => if_neg plain
  rw [word_pass, same, List.map_id]
  rfl

end DynamicNotes

namespace Linkage

/-- The tables lie where the notes say, and a stride that is missing is the natural one. -/
structure IsLocatedBy (notes : DynamicNotes) (linkage : Linkage) : Prop where
  strings : linkage.symbols.stringLocation =
    ⟨notes.word DynamicTag.strings, notes.word DynamicTag.stringsSize, 0⟩
  symbols : linkage.symbols.symbolLocation.address = notes.word DynamicTag.symbols
  symbolStride : linkage.symbols.symbolLocation.stride =
    DynamicSymbols.strideOr (notes.word DynamicTag.symbolStride) linkage.layout.symbolSize
  hash : linkage.symbols.hashAddress = notes.word DynamicTag.hash
  rela : linkage.relocs.relaLocation =
    ⟨notes.word DynamicTag.rela, notes.word DynamicTag.relaSize,
      DynamicSymbols.strideOr (notes.word DynamicTag.relaStride)
        (linkage.layout.relocationSize true)⟩
  rel : linkage.relocs.relLocation =
    ⟨notes.word DynamicTag.rel, notes.word DynamicTag.relSize,
      DynamicSymbols.strideOr (notes.word DynamicTag.relStride)
        (linkage.layout.relocationSize false)⟩
  pltKind? : linkage.relocs.pltKind? = notes.pltKind?
  plt : linkage.relocs.pltLocation =
    ⟨notes.word DynamicTag.pltRelocations, notes.word DynamicTag.pltRelocationSize,
      (notes.pltKind?.map fun kind =>
        (linkage.layout.relocationSize kind.hasAddend).toUInt64).getD 0⟩
  pltGot : linkage.relocs.pltGot = notes.word DynamicTag.pltGot

/-- Two dynamic arrays lead to the same tables and give the same answers. -/
structure AnswersAs (left right : Linkage) : Prop where
  symbols : left.symbols = right.symbols
  relocs : left.relocs = right.relocs
  findHashed : ∀ name, left.symbols.findHashed name = right.symbols.findHashed name
  find? : ∀ name, left.symbols.find? name = right.symbols.find? name
  scan? : ∀ name, left.symbols.scan? name = right.symbols.scan? name
  gotEntry? : ∀ name, left.gotEntry? name = right.gotEntry? name
  gotPltEntry? : ∀ name, left.gotPltEntry? name = right.gotPltEntry? name
  entry? : ∀ tag, left.entry? tag = right.entry? tag
  needed : left.needed = right.needed
  soname? : left.soname? = right.soname?
  rpath? : left.rpath? = right.rpath?
  runpath? : left.runpath? = right.runpath?
  flags? : left.flags? = right.flags?

variable (space : AddressSpace) (layout : Layout) (address byteSize : UInt64)

theorem isLocatedBy_pass (entries : List DynamicEntry) :
    (ofEntries space layout address byteSize entries).IsLocatedBy
      (DynamicNotes.pass space.domain entries) := by
  have pointer : ∀ tag ∈ DynamicTag.pointers, _ := fun tag pointing =>
    DynamicNotes.word_pass_of_pointer pointing space.domain entries
  have number : ∀ tag ∉ DynamicTag.pointers, _ := fun tag plain =>
    DynamicNotes.word_pass_of_number plain space.domain entries
  have kind : (DynamicNotes.pass space.domain entries).pltKind? =
      (DynamicEntry.valuesOf DynamicTag.pltRelocationKind entries).findSome?
        RelocationKind.ofTag? :=
    (DynamicEntry.isFirst_iff.mp (DynamicNotes.areFirst_pass space.domain entries).pltKind?).symm
  constructor
  case strings =>
    rw [pointer DynamicTag.strings (by decide), number DynamicTag.stringsSize (by decide)]
    rfl
  case symbols =>
    rw [pointer DynamicTag.symbols (by decide)]
    rfl
  case symbolStride =>
    rw [number DynamicTag.symbolStride (by decide)]
    rfl
  case hash =>
    rw [pointer DynamicTag.hash (by decide)]
    rfl
  case rela =>
    rw [pointer DynamicTag.rela (by decide), number DynamicTag.relaSize (by decide),
      number DynamicTag.relaStride (by decide)]
    rfl
  case rel =>
    rw [pointer DynamicTag.rel (by decide), number DynamicTag.relSize (by decide),
      number DynamicTag.relStride (by decide)]
    rfl
  case pltKind? =>
    rw [kind]
    rfl
  case plt =>
    rw [pointer DynamicTag.pltRelocations (by decide),
      number DynamicTag.pltRelocationSize (by decide), kind]
    rfl
  case pltGot =>
    rw [pointer DynamicTag.pltGot (by decide)]
    rfl

/-- Entries that carry the same values for every tag locate the same tables. -/
theorem answersAs_of_valuesOf {first second : List DynamicEntry}
    (same : ∀ tag, DynamicEntry.valuesOf tag first = DynamicEntry.valuesOf tag second) :
    (ofEntries space layout address byteSize first).AnswersAs
      (ofEntries space layout address byteSize second) := by
  have symbols : DynamicSymbols.locate space layout first =
      DynamicSymbols.locate space layout second := by
    simp only [DynamicSymbols.locate, DynamicEntry.addressOf, DynamicEntry.sizeOf, same]
  have relocs : DynamicRelocations.locate space layout first =
      DynamicRelocations.locate space layout second := by
    simp only [DynamicRelocations.locate, DynamicEntry.addressOf, DynamicEntry.sizeOf, same]
  have whole : ofEntries space layout address byteSize first =
      { ofEntries space layout address byteSize second with entries := first } := by
    simp only [ofEntries, symbols, relocs]
  have texts : ∀ tag, (ofEntries space layout address byteSize first).texts tag =
      (ofEntries space layout address byteSize second).texts tag := by
    intro tag
    rw [whole]
    change (DynamicEntry.valuesOf tag first).filterMap _ =
      (DynamicEntry.valuesOf tag second).filterMap _
    rw [same]
  have firsts : ∀ tag, Linkage.entry? (ofEntries space layout address byteSize first) tag =
      Linkage.entry? (ofEntries space layout address byteSize second) tag := by
    intro tag
    change first.find? _ = second.find? _
    rw [DynamicEntry.find?_eq_head?_valuesOf, DynamicEntry.find?_eq_head?_valuesOf, same]
  exact {
    symbols := symbols
    relocs := relocs
    findHashed := fun name => congrArg (·.findHashed name) symbols
    find? := fun name => congrArg (·.find? name) symbols
    scan? := fun name => congrArg (·.scan? name) symbols
    gotEntry? := fun name => by rw [whole]; rfl
    gotPltEntry? := fun name => by rw [whole]; rfl
    entry? := firsts
    needed := texts DynamicTag.needed
    soname? := congrArg List.head? (texts DynamicTag.soname)
    rpath? := congrArg List.head? (texts DynamicTag.rpath)
    runpath? := congrArg List.head? (texts DynamicTag.runpath)
    flags? := congrArg (Option.map DynamicEntry.value) (firsts DynamicTag.flags) }

/-- One pass over the entries locates every table: each address is the first of its tag that is not
zero once it is resolved, each size and stride is the first of its tag that is not zero, and the
kind of the relocations of the PLT is the first that is one. Entries that carry the same values for
every tag, in whatever order the tags come, lead to the same tables and the same answers. -/
theorem ofEntries_by_first_uses :
    (∀ entries : List DynamicEntry,
      (ofEntries space layout address byteSize entries).IsLocatedBy
        (DynamicNotes.pass space.domain entries) ∧
      (DynamicNotes.pass space.domain entries).AreFirst space.domain entries) ∧
    ∀ first second : List DynamicEntry,
      (∀ tag, DynamicEntry.valuesOf tag first = DynamicEntry.valuesOf tag second) →
      (ofEntries space layout address byteSize first).AnswersAs
        (ofEntries space layout address byteSize second) := by
  refine ⟨?_, ?_⟩
  · intro entries
    exact ⟨isLocatedBy_pass space layout address byteSize entries,
      DynamicNotes.areFirst_pass space.domain entries⟩
  · intro first second same
    exact answersAs_of_valuesOf space layout address byteSize same

/-- Two named symbols, their hash table and one relocation of the PLT, placed at `0x1000`. -/
def oneProcedure : AddressSpace :=
  let strings := [0, 97, 0, 98]
  let symbol := fun (name : UInt8) => name :: List.replicate 15 0
  let hash := [1, 3, 1, 0, 2, 0].flatMap fun (word : UInt8) => [word, 0, 0, 0]
  let relocation := [0x30, 0, 0, 0, 7, 1, 0, 0]
  let bytes := strings ++ symbol 0 ++ symbol 1 ++ symbol 3 ++ hash ++ relocation
  .mapped (.ofBytes 0x1000 bytes.toArray) 0x1000 0x1054 {}

/-- Sizes and kinds that are of no use stand in front of those that are. -/
def procedureTags : List DynamicEntry :=
  [⟨DynamicTag.stringsSize, 0⟩, ⟨DynamicTag.strings, 0⟩, ⟨DynamicTag.stringsSize, 4⟩,
    ⟨DynamicTag.symbols, 4⟩, ⟨DynamicTag.hash, 52⟩, ⟨DynamicTag.pltRelocationKind, 3⟩,
    ⟨DynamicTag.pltRelocations, 76⟩, ⟨DynamicTag.pltRelocationSize, 8⟩,
    ⟨DynamicTag.pltRelocationKind, 17⟩]

/-- The same with the kind in front of the table and the sizes in front of the addresses. -/
def shuffledTags : List DynamicEntry :=
  [⟨DynamicTag.pltRelocationKind, 3⟩, ⟨DynamicTag.pltRelocationKind, 17⟩,
    ⟨DynamicTag.pltRelocationSize, 8⟩, ⟨DynamicTag.hash, 52⟩, ⟨DynamicTag.stringsSize, 0⟩,
    ⟨DynamicTag.symbols, 4⟩, ⟨DynamicTag.stringsSize, 4⟩, ⟨DynamicTag.strings, 0⟩,
    ⟨DynamicTag.pltRelocations, 76⟩]

theorem procedureTags_shuffled :
    (∀ tag, DynamicEntry.valuesOf tag procedureTags = DynamicEntry.valuesOf tag shuffledTags) ∧
      gotPltEntry? (ofEntries oneProcedure ⟨.elf32, .little⟩ 0 0 procedureTags) "a" =
        some 0x1030 ∧
      (ofEntries oneProcedure ⟨.elf32, .little⟩ 0 0 procedureTags).AnswersAs
        (ofEntries oneProcedure ⟨.elf32, .little⟩ 0 0 shuffledTags) := by
  have same : ∀ tag,
      DynamicEntry.valuesOf tag procedureTags = DynamicEntry.valuesOf tag shuffledTags :=
    DynamicEntry.valuesOf_eq_of_listed (by decide +kernel)
  obtain ⟨-, alike⟩ := ofEntries_by_first_uses oneProcedure ⟨.elf32, .little⟩ 0 0
  exact ⟨same, by decide +kernel, alike procedureTags shuffledTags same⟩

end Linkage
end ElfLens
