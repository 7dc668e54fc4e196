import ElfLens.Dynamic.Entry
import ElfLens.Proofs.Reading
import ElfLens.Relocation
import ElfLens.Section
import ElfLens.Segment
import ElfLens.Symbol

set_option autoImplicit false

namespace ElfLens

open FieldReader

instance (layout : Layout) (word : UInt64) : Decidable (layout.Holds word) :=
  inferInstanceAs (Decidable (word.toNat < _))

instance (layout : Layout) (word : Int64) : Decidable (layout.HoldsSigned word) :=
  match layout with
  | ⟨.elf32, _⟩ => inferInstanceAs (Decidable (_ ≤ word.toInt ∧ word.toInt ≤ _))
  | ⟨.elf64, _⟩ => inferInstanceAs (Decidable True)

instance (layout : Layout) (symbol : Symbol) : Decidable (symbol.Fits layout) :=
  inferInstanceAs (Decidable (layout.Holds symbol.value ∧ layout.Holds symbol.byteSize))

theorem DynamicEntry.reads_fields {layout : Layout} {entry : DynamicEntry}
    (tag : layout.HoldsSigned entry.tag) (value : layout.Holds entry.value) :
    (fields layout).Reads (entry.encode layout) entry :=
  (reads_signedWord tag).bind ((reads_word value).map fun read => DynamicEntry.mk entry.tag read)

theorem DynamicEntry.length_encode (layout : Layout) (entry : DynamicEntry) :
    (entry.encode layout).length = layout.dynamicSize := by
  rw [encode, Layout.spellSigned, List.length_append, Layout.length_spellWord,
    Layout.length_spellWord, Layout.wordSize, Layout.dynamicSize]
  cases layout.wordClass <;> rfl

theorem Symbol.reads_fields {layout : Layout} {symbol : Symbol} (fits : symbol.Fits layout)
    (index : Nat) : (fields layout index).Reads (symbol.encode layout) { symbol with index } := by
  obtain ⟨value, size⟩ := fits
  unfold fields encode
  split <;> simp only [List.append_assoc, List.cons_append, List.nil_append]
  · apply (reads_u32 layout.order symbol.nameOffset).bind
    apply (reads_word value).bind
    apply (reads_word size).bind
    apply (reads_u8 symbol.info).bind
    apply (reads_u8 symbol.other).bind
    exact (reads_u16 layout.order symbol.sectionIndex).map _
  · apply (reads_u32 layout.order symbol.nameOffset).bind
    apply (reads_u8 symbol.info).bind
    apply (reads_u8 symbol.other).bind
    apply (reads_u16 layout.order symbol.sectionIndex).bind
    apply (reads_word value).bind
    exact (reads_word size).map _

theorem Symbol.index_of_fields (layout : Layout) (index : Nat) :
    (fields layout index).Ensures (·.index = index) := by
  unfold fields
  split
  all_goals
    exact Ensures.bind fun _ => Ensures.bind fun _ => Ensures.bind fun _ => Ensures.bind fun _ =>
      Ensures.bind fun _ => Ensures.bind fun _ => Ensures.pure rfl

theorem Symbol.exactly_fields (layout : Layout) (index : Nat) :
    (fields layout index).Exactly layout.symbolSize := by
  obtain ⟨wordClass, order⟩ := layout
  cases wordClass with
  | elf32 =>
      have word : (word ⟨.elf32, order⟩).Exactly 4 := exactly_word _
      change Exactly _ (4 + (4 + (4 + (1 + (1 + 2)))))
      exact (exactly_u32 order).bind fun _ => word.bind fun _ => word.bind fun _ =>
        exactly_u8.bind fun _ => exactly_u8.bind fun _ => (exactly_u16 order).map _
  | elf64 =>
      have word : (word ⟨.elf64, order⟩).Exactly 8 := exactly_word _
      change Exactly _ (4 + (1 + (1 + (2 + (8 + 8)))))
      exact (exactly_u32 order).bind fun _ => exactly_u8.bind fun _ => exactly_u8.bind fun _ =>
        (exactly_u16 order).bind fun _ => word.bind fun _ => word.map _

theorem Segment.reads_fields {layout : Layout} {segment : Segment} (fits : segment.Fits layout)
    (index : Nat) :
    (fields layout index).Reads (segment.encode layout) { segment with index } := by
  have offset : layout.Holds segment.offset := fits _ (by simp)
  have vaddr : layout.Holds segment.vaddr := fits _ (by simp)
  have paddr : layout.Holds segment.paddr := fits _ (by simp)
  have fileSize : layout.Holds segment.fileSize := fits _ (by simp)
  have memSize : layout.Holds segment.memSize := fits _ (by simp)
  have align : layout.Holds segment.align := fits _ (by simp)
  unfold fields encode
  split <;> simp only [List.append_assoc]
  · apply (reads_u32 layout.order segment.typeCode).bind
    apply (reads_word offset).bind
    apply (reads_word vaddr).bind
    apply (reads_word paddr).bind
    apply (reads_word fileSize).bind
    apply (reads_word memSize).bind
    apply (reads_u32 layout.order segment.flagBits).bind
    exact (reads_word align).map _
  · apply (reads_u32 layout.order segment.typeCode).bind
    apply (reads_u32 layout.order segment.flagBits).bind
    apply (reads_word offset).bind
    apply (reads_word vaddr).bind
    apply (reads_word paddr).bind
    apply (reads_word fileSize).bind
    apply (reads_word memSize).bind
    exact (reads_word align).map _

theorem Segment.exactly_fields (layout : Layout) (index : Nat) :
    (fields layout index).Exactly layout.segmentSize := by
  obtain ⟨wordClass, order⟩ := layout
  cases wordClass with
  | elf32 =>
      have word : (word ⟨.elf32, order⟩).Exactly 4 := exactly_word _
      have half : (u32 order).Exactly 4 := exactly_u32 order
      change Exactly _ (4 + (4 + (4 + (4 + (4 + (4 + (4 + 4)))))))
      exact half.bind fun _ => word.bind fun _ => word.bind fun _ => word.bind fun _ =>
        word.bind fun _ => word.bind fun _ => half.bind fun _ => word.map _
  | elf64 =>
      have word : (word ⟨.elf64, order⟩).Exactly 8 := exactly_word _
      have half : (u32 order).Exactly 4 := exactly_u32 order
      change Exactly _ (4 + (4 + (8 + (8 + (8 + (8 + (8 + 8)))))))
      exact half.bind fun _ => half.bind fun _ => word.bind fun _ => word.bind fun _ =>
        word.bind fun _ => word.bind fun _ => word.bind fun _ => word.map _

theorem SectionHeader.reads_fields {layout : Layout} {header : SectionHeader}
    (fits : header.Fits layout) : (fields layout).Reads (header.encode layout) header := by
  have flagBits : layout.Holds header.flagBits := fits _ (by simp)
  have address : layout.Holds header.address := fits _ (by simp)
  have offset : layout.Holds header.offset := fits _ (by simp)
  have byteSize : layout.Holds header.byteSize := fits _ (by simp)
  have align : layout.Holds header.align := fits _ (by simp)
  have stride : layout.Holds header.stride := fits _ (by simp)
  unfold fields encode
  simp only [List.append_assoc]
  apply (reads_u32 layout.order header.nameOffset).bind
  apply (reads_u32 layout.order header.typeCode).bind
  apply (reads_word flagBits).bind
  apply (reads_word address).bind
  apply (reads_word offset).bind
  apply (reads_word byteSize).bind
  apply (reads_u32 layout.order header.link).bind
  apply (reads_u32 layout.order header.info).bind
  apply (reads_word align).bind
  exact (reads_word stride).map _

theorem SectionHeader.exactly_fields (layout : Layout) :
    (fields layout).Exactly layout.sectionSize := by
  have size : ∀ wide, wide = layout.wordSize → layout.sectionSize =
      4 + (4 + (wide + (wide + (wide + (wide + (4 + (4 + (wide + wide)))))))) := by
    rintro wide rfl
    unfold Layout.sectionSize Layout.wordSize Class.wordSize
    cases layout.wordClass <;> rfl
  have word : (word layout).Exactly layout.wordSize := exactly_word layout
  have half : (u32 layout.order).Exactly 4 := exactly_u32 layout.order
  rw [size _ rfl]
  exact half.bind fun _ => half.bind fun _ => word.bind fun _ => word.bind fun _ =>
    word.bind fun _ => word.bind fun _ => half.bind fun _ => half.bind fun _ =>
      word.bind fun _ => word.map _

namespace Relocation

/-- The symbol and the type are the two parts of the info field, if the type has so few bits. -/
theorem info_parts (relocation : Relocation) (c : Class)
    (narrow : relocation.typeCode.toUInt64 < 1 <<< typeBits c) :
    (relocation.info c >>> typeBits c).toUInt32 = relocation.symbol ∧
      (relocation.info c &&& ((1 <<< typeBits c) - 1)).toUInt32 = relocation.typeCode := by
  obtain ⟨bits, few, mask, spread⟩ : ∃ bits, bits ≤ 32 ∧
      (typeBits c).toNat % 64 = bits ∧ ((1 : UInt64) <<< typeBits c).toNat = 2 ^ bits := by
    cases c with
    | elf32 => exact ⟨8, by decide, rfl, rfl⟩
    | elf64 => exact ⟨32, by decide, rfl, rfl⟩
  have small : relocation.typeCode.toNat < 2 ^ bits := by
    rw [← spread, ← UInt32.toNat_toUInt64]
    exact UInt64.lt_iff_toNat_lt.mp narrow
  have symbol := relocation.symbol.toNat_lt
  have room : relocation.symbol.toNat * 2 ^ bits < 2 ^ 64 := by
    have power : 2 ^ bits ≤ 2 ^ 32 := Nat.pow_le_pow_right (by decide) few
    calc relocation.symbol.toNat * 2 ^ bits
        ≤ relocation.symbol.toNat * 2 ^ 32 := Nat.mul_le_mul_left _ power
      _ < 2 ^ 32 * 2 ^ 32 := Nat.mul_lt_mul_of_pos_right symbol (by decide)
      _ = 2 ^ 64 := by decide
  have whole : (relocation.info c).toNat =
      relocation.symbol.toNat * 2 ^ bits + relocation.typeCode.toNat := by
    rw [info, UInt64.toNat_or, UInt64.toNat_shiftLeft, mask, UInt32.toNat_toUInt64,
      UInt32.toNat_toUInt64, Nat.shiftLeft_eq, Nat.mod_eq_of_lt room, ← Nat.shiftLeft_eq,
      Nat.shiftLeft_add_eq_or_of_lt small]
  constructor
  · apply UInt32.toNat_inj.mp
    rw [UInt64.toNat_toUInt32, UInt64.toNat_shiftRight, mask, whole, Nat.shiftRight_eq_div_pow,
      Nat.mul_comm, Nat.mul_add_div (Nat.two_pow_pos bits), Nat.div_eq_of_lt small, Nat.add_zero]
    exact Nat.mod_eq_of_lt symbol
  · have ones : ((1 : UInt64) <<< typeBits c - 1).toNat = 2 ^ bits - 1 := by
      rw [UInt64.toNat_sub_of_le, spread]
      · rfl
      · rw [UInt64.le_iff_toNat_le, spread]
        exact Nat.one_le_two_pow
    apply UInt32.toNat_inj.mp
    rw [UInt64.toNat_toUInt32, UInt64.toNat_and, ones, whole, Nat.and_two_pow_sub_one_eq_mod,
      Nat.mul_comm, Nat.mul_add_mod, Nat.mod_eq_of_lt small]
    exact Nat.mod_eq_of_lt relocation.typeCode.toNat_lt

theorem reads_fields {layout : Layout} {kind : RelocationKind} {relocation : Relocation}
    (fits : relocation.Fits layout kind) :
    (fields layout kind).Reads (relocation.encode layout kind) relocation := by
  obtain ⟨offset, narrow, info, addend⟩ := fits
  obtain ⟨symbol, typeCode⟩ := relocation.info_parts layout.wordClass narrow
  let shift := typeBits layout.wordClass
  have read : (fields layout kind).Reads (relocation.encode layout kind)
      { offset := relocation.offset
        symbol := (relocation.info layout.wordClass >>> shift).toUInt32
        typeCode := (relocation.info layout.wordClass &&& ((1 <<< shift) - 1)).toUInt32
        addend := relocation.addend } := by
    unfold fields encode
    rw [List.append_assoc]
    apply (reads_word offset).bind
    apply (reads_word info).bind
    cases kind with
    | rel =>
        have none : relocation.addend = 0 := addend
        rw [none]
        exact (Reads.pure (0 : Int64)).map _
    | rela =>
        have held : layout.HoldsSigned relocation.addend := addend
        exact (reads_signedWord held).map _
  rwa [symbol, typeCode] at read

theorem exactly_fields (layout : Layout) (kind : RelocationKind) :
    (fields layout kind).Exactly (layout.relocationSize kind.hasAddend) := by
  have word : (word layout).Exactly layout.wordSize := exactly_word layout
  unfold fields
  cases kind with
  | rel =>
      have size : layout.relocationSize false = layout.wordSize + (layout.wordSize + 0) := by
        unfold Layout.relocationSize Layout.wordSize Class.wordSize
        cases layout.wordClass <;> rfl
      change Exactly _ (layout.relocationSize false)
      rw [size]
      exact word.bind fun _ => word.bind fun _ => (Exactly.pure (0 : Int64)).map _
  | rela =>
      have size : layout.relocationSize true =
          layout.wordSize + (layout.wordSize + layout.wordSize) := by
        unfold Layout.relocationSize Layout.wordSize Class.wordSize
        cases layout.wordClass <;> rfl
      change Exactly _ (layout.relocationSize true)
      rw [size]
      exact word.bind fun _ => word.bind fun _ => (exactly_signedWord layout).map _

end Relocation

end ElfLens
