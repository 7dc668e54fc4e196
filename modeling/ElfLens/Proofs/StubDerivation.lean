import ElfLens.Config.Basic

set_option autoImplicit false

namespace ElfLens.PltShape

/-- Where the stub of a slot would be if there were no largest address: as many stubs behind the
start of the PLT as there are whole slots before this one. -/
def stubPlace (shape : PltShape) (slot gotBase pltBase : UInt64) : Nat :=
  pltBase.toNat +
    (slot.toNat - gotBase.toNat) / shape.pointerWidth.toNat * shape.stubStride.toNat

/-- The slot has this many slots before it, and no part of one. -/
def IsSlotAt (shape : PltShape) (gotBase : UInt64) (index : Nat) (slot : UInt64) : Prop :=
  slot.toNat = gotBase.toNat + index * shape.pointerWidth.toNat

instance (shape : PltShape) (gotBase : UInt64) (index : Nat) (slot : UInt64) :
    Decidable (shape.IsSlotAt gotBase index slot) :=
  inferInstanceAs (Decidable (_ = _))

variable {shape : PltShape} {slot later gotBase pltBase stub : UInt64} {index : Nat}

/-- That every step is checked loses no stub, as none gives more than the address it leads to. -/
theorem stubAddress?_eq_some_iff :
    shape.stubAddress? slot gotBase pltBase = some stub ↔
      0 < shape.pointerWidth ∧ gotBase ≤ slot ∧
        stub.toNat = shape.stubPlace slot gotBase pltBase := by
  simp only [stubAddress?, bind, Option.bind_eq_some_iff, Word.minus?_eq_some_iff,
    Word.over?_eq_some_iff, Word.times?_eq_some_iff, Word.plus?_eq_some_iff,
    UInt64.pos_iff_ne_zero, UInt64.le_iff_toNat_le, stubPlace]
  constructor
  · rintro ⟨distance, away, index, ⟨wide, quotient⟩, offset, product, sum⟩
    refine ⟨wide, by omega, ?_⟩
    rw [sum, product, quotient, away, Nat.add_sub_cancel_left]
  · rintro ⟨wide, ordered, place⟩
    have distance := UInt64.toNat_sub_of_le slot gotBase (UInt64.le_iff_toNat_le.mpr ordered)
    have quotient := UInt64.toNat_div (slot - gotBase) shape.pointerWidth
    have bound := stub.toNat_lt
    have offset := UInt64.toNat_ofNat_of_lt'
      (show (slot.toNat - gotBase.toNat) / shape.pointerWidth.toNat * shape.stubStride.toNat <
        UInt64.size by rw [Word.size_eq]; omega)
    refine ⟨slot - gotBase, by omega, (slot - gotBase) / shape.pointerWidth, ⟨wide, quotient⟩,
      _, ?_, place.trans (congrArg (pltBase.toNat + ·) offset.symm)⟩
    rw [offset, quotient, distance]

theorem isSome_stubAddress?_iff :
    (shape.stubAddress? slot gotBase pltBase).isSome ↔
      0 < shape.pointerWidth ∧ gotBase ≤ slot ∧
        shape.stubPlace slot gotBase pltBase < UInt64.size := by
  rw [Option.isSome_iff_exists]
  simp only [stubAddress?_eq_some_iff]
  constructor
  · rintro ⟨stub, wide, ordered, place⟩
    exact ⟨wide, ordered, place ▸ stub.toNat_lt⟩
  · rintro ⟨wide, ordered, fits⟩
    exact ⟨_, wide, ordered, UInt64.toNat_ofNat_of_lt' fits⟩

theorem stubPlace_mono (shape : PltShape) (gotBase pltBase : UInt64) (ordered : slot ≤ later) :
    shape.stubPlace slot gotBase pltBase ≤ shape.stubPlace later gotBase pltBase := by
  rw [UInt64.le_iff_toNat_le] at ordered
  have distances : slot.toNat - gotBase.toNat ≤ later.toNat - gotBase.toNat := by omega
  have indexes := Nat.div_le_div_right (c := shape.pointerWidth.toNat) distances
  exact Nat.add_le_add_left (Nat.mul_le_mul_right _ indexes) _

/-- Before a slot with whole slots before it, there are as many stubs. -/
theorem stubPlace_of_isSlotAt (wide : 0 < shape.pointerWidth)
    (whole : shape.IsSlotAt gotBase index slot) (pltBase : UInt64) :
    shape.stubPlace slot gotBase pltBase = pltBase.toNat + index * shape.stubStride.toNat := by
  have width : 0 < shape.pointerWidth.toNat := UInt64.lt_iff_toNat_lt.mp wide
  rw [stubPlace, whole, Nat.add_sub_cancel_left, Nat.mul_div_cancel _ width]

theorem index_of_stubAddress? (long : 0 < shape.stubStride)
    (whole : shape.IsSlotAt gotBase index slot)
    (derived : shape.stubAddress? slot gotBase pltBase = some stub) :
    (stub.toNat - pltBase.toNat) / shape.stubStride.toNat = index := by
  obtain ⟨wide, -, place⟩ := stubAddress?_eq_some_iff.mp derived
  have stride : 0 < shape.stubStride.toNat := UInt64.lt_iff_toNat_lt.mp long
  rw [place, stubPlace_of_isSlotAt wide whole, Nat.add_sub_cancel_left,
    Nat.mul_div_cancel _ stride]

/-- There is a stub for a slot of the GOT exactly if the address that the shape calls for is one,
and then the stub is there. Stubs stand in the order of their slots, and behind a slot that has none
because the addresses end, no slot has one. If stubs take up room, slots a whole number of slots
behind the start of the GOT do not share them, and such a slot can be told from its stub. -/
theorem stubs_in_order_of_slots (shape : PltShape) (gotBase pltBase : UInt64) :
    (∀ slot stub, shape.stubAddress? slot gotBase pltBase = some stub ↔
      0 < shape.pointerWidth ∧ gotBase ≤ slot ∧
        stub.toNat = shape.stubPlace slot gotBase pltBase) ∧
    (∀ slot, (shape.stubAddress? slot gotBase pltBase).isSome ↔
      0 < shape.pointerWidth ∧ gotBase ≤ slot ∧
        shape.stubPlace slot gotBase pltBase < UInt64.size) ∧
    (∀ slot later, slot ≤ later →
      (∀ stub after, shape.stubAddress? slot gotBase pltBase = some stub →
        shape.stubAddress? later gotBase pltBase = some after → stub ≤ after) ∧
      (0 < shape.pointerWidth → gotBase ≤ slot →
        shape.stubAddress? slot gotBase pltBase = none →
        shape.stubAddress? later gotBase pltBase = none)) ∧
    (0 < shape.stubStride → ∀ slot index stub, shape.IsSlotAt gotBase index slot →
      shape.stubAddress? slot gotBase pltBase = some stub →
      slot.toNat = gotBase.toNat + (stub.toNat - pltBase.toNat) / shape.stubStride.toNat *
        shape.pointerWidth.toNat ∧
      ∀ other place, shape.IsSlotAt gotBase place other → place ≠ index →
        shape.stubAddress? other gotBase pltBase ≠ some stub) := by
  refine ⟨fun _ _ => stubAddress?_eq_some_iff, fun _ => isSome_stubAddress?_iff, ?_, ?_⟩
  · intro slot later ordered
    have places := shape.stubPlace_mono gotBase pltBase ordered
    refine ⟨?_, ?_⟩
    · intro stub after here there
      obtain ⟨-, -, place⟩ := stubAddress?_eq_some_iff.mp here
      obtain ⟨-, -, place'⟩ := stubAddress?_eq_some_iff.mp there
      rw [UInt64.le_iff_toNat_le, place, place']
      exact places
    · intro wide behind missing
      rw [← Option.not_isSome_iff_eq_none, isSome_stubAddress?_iff] at missing ⊢
      rintro ⟨-, -, fits⟩
      exact missing ⟨wide, behind, Nat.lt_of_le_of_lt places fits⟩
  · intro long slot index stub whole derived
    have told := index_of_stubAddress? long whole derived
    refine ⟨by rw [told]; exact whole, ?_⟩
    intro other place whole' different derived'
    exact different ((index_of_stubAddress? long whole' derived').symm.trans told)

/-- With room for three stubs before the addresses end, the second and the third slot have stubs of
their own, and the fourth and all behind it have none. -/
theorem stubs_in_order_at_top :
    x86.stubAddress? 0x2004 0x2000 0xffffffffffffffd0 = some 0xffffffffffffffe0 ∧
      x86.stubAddress? 0x2008 0x2000 0xffffffffffffffd0 = some 0xfffffffffffffff0 ∧
      (0x2008 : UInt64).toNat = (0x2000 : UInt64).toNat + ((0xfffffffffffffff0 : UInt64).toNat -
        (0xffffffffffffffd0 : UInt64).toNat) / x86.stubStride.toNat * x86.pointerWidth.toNat ∧
      x86.stubAddress? 0x2004 0x2000 0xffffffffffffffd0 ≠ some 0xfffffffffffffff0 ∧
      ∀ slot, 0x200c ≤ slot → x86.stubAddress? slot 0x2000 0xffffffffffffffd0 = none := by
  obtain ⟨placed, -, order, told⟩ := stubs_in_order_of_slots x86 0x2000 0xffffffffffffffd0
  have second : x86.stubAddress? 0x2004 0x2000 0xffffffffffffffd0 = some 0xffffffffffffffe0 :=
    (placed _ _).mpr (by decide)
  have third : x86.stubAddress? 0x2008 0x2000 0xffffffffffffffd0 = some 0xfffffffffffffff0 :=
    (placed _ _).mpr (by decide)
  obtain ⟨slot, own⟩ := told (by decide) 0x2008 2 _ (by decide) third
  refine ⟨second, third, slot, own 0x2004 1 (by decide) (by decide), ?_⟩
  intro slot behind
  exact (order 0x200c slot behind).2 (by decide) (by decide) (by decide)

end ElfLens.PltShape
