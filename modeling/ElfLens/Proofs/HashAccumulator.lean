import ElfLens.SymbolHash

set_option autoImplicit false

namespace ElfLens.SymbolHash

/-- Takes one more byte of a name into the accumulator of a linker, a number below `2 ^ 32`. -/
def linkerStep (hash : Nat) (byte : UInt8) : Nat :=
  let mixed := (16 * hash + byte.toNat) % UInt32.size
  mixed ^^^ ((mixed >>> 24) &&& 0xf0)

/-- What the accumulator of a linker holds behind a name. -/
def linkerHash (name : Bytes) : Nat := name.foldl linkerStep 0

theorem toNat_low_bits (word : UInt32) : (word &&& 0x0fffffff).toNat = word.toNat % 268435456 := by
  rw [UInt32.toNat_and]
  exact Nat.and_two_pow_sub_one_eq_mod word.toNat 28

theorem toNat_shiftLeft_four (word : UInt32) :
    (word <<< 4).toNat = 16 * word.toNat % UInt32.size := by
  rw [UInt32.toNat_shiftLeft, Nat.shiftLeft_eq, Nat.mul_comm]
  rfl

/-- A byte is added to what the shift leaves, and whatever 32 bits have no room for is lost. -/
theorem toNat_mixed (hash : UInt32) (byte : UInt8) :
    ((hash <<< 4) + byte.toUInt32).toNat = (16 * hash.toNat + byte.toNat) % UInt32.size := by
  rw [UInt32.toNat_add, toNat_shiftLeft_four, UInt8.toNat_toUInt32]
  exact Nat.mod_add_mod _ _ _

/-- The four high bits are shifted out, so it makes no difference whether they were cleared. -/
theorem shiftLeft_low_bits (word : UInt32) : (word &&& 0x0fffffff) <<< 4 = word <<< 4 := by
  apply UInt32.toNat_inj.mp
  have size : UInt32.size = 4294967296 := rfl
  rw [toNat_shiftLeft_four, toNat_shiftLeft_four, toNat_low_bits, size]
  omega

/-- Bits that are cleared because they are set are just cleared, if only bits below them change. -/
theorem xor_and_not_and {word change mask : UInt32} (below : change &&& mask = 0) :
    (word ^^^ change) &&& ~~~(word &&& mask) = (word ^^^ change) &&& ~~~mask := by
  apply UInt32.toBitVec_inj.mp
  apply BitVec.eq_of_getLsbD_eq
  intro place inside
  have apart := congrArg (fun word : UInt32 => word.toBitVec.getLsbD place) below
  simp only [UInt32.toBitVec_and, BitVec.getLsbD_and] at apart
  simp only [UInt32.toBitVec_and, UInt32.toBitVec_xor, UInt32.toBitVec_not, BitVec.getLsbD_and,
    BitVec.getLsbD_xor, BitVec.getLsbD_not, inside, decide_true, Bool.true_and]
  cases masked : mask.toBitVec.getLsbD place with
  | false => simp
  | true =>
      have kept : change.toBitVec.getLsbD place = false := by simpa [masked] using apart
      simp [kept]

/-- Clearing the high bits in each step and leaving them alone differ in these bits only. -/
theorem step_eq (hash : UInt32) (byte : UInt8) :
    step hash byte = looseStep hash byte &&& 0x0fffffff := by
  unfold step looseStep
  dsimp only
  generalize (hash <<< 4) + byte.toUInt32 = mixed
  have moved : (mixed &&& 0xf0000000) >>> 24 = (mixed >>> 24) &&& 0xf0 := UInt32.shiftRight_and
  have below : ((mixed >>> 24) &&& 0xf0) &&& 0xf0000000 = 0 := by
    rw [UInt32.and_assoc]
    exact UInt32.and_zero
  rw [moved, xor_and_not_and below]
  rfl

/-- A step makes the same of an accumulator whether its high bits are cleared or not. -/
theorem step_low_bits (hash : UInt32) (byte : UInt8) :
    step (hash &&& 0x0fffffff) byte = looseStep hash byte &&& 0x0fffffff := by
  rw [step_eq, looseStep, looseStep, shiftLeft_low_bits]

theorem hash_eq_looseHash (name : Bytes) : hash name = looseHash name := by
  change name.foldl step (0 &&& 0x0fffffff) = name.foldl looseStep 0 &&& 0x0fffffff
  exact Array.foldl_hom (· &&& 0x0fffffff) step_low_bits

theorem toNat_looseStep (hash : UInt32) (byte : UInt8) :
    linkerStep hash.toNat byte = (looseStep hash byte).toNat := by
  unfold linkerStep looseStep
  rw [UInt32.toNat_xor, UInt32.toNat_and, UInt32.toNat_shiftRight, toNat_mixed]
  rfl

theorem toNat_hash (name : Bytes) : (hash name).toNat = linkerHash name % 268435456 := by
  rw [hash_eq_looseHash, looseHash, toNat_low_bits, linkerHash]
  exact congrArg (· % 268435456) (Array.foldl_hom UInt32.toNat toNat_looseStep).symm

theorem hash_lt (name : Bytes) : (hash name).toNat < 268435456 := by
  rw [toNat_hash]
  exact Nat.mod_lt _ (by decide)

/-- The hash of a name of any length has 28 bits, and they are the low ones of the accumulator that
is never cleared, be it held in 32 bits or worked out in exact numbers. The hash of a name with one
more byte is a step from that of the name; the shift of this step only multiplies, and nothing is
lost unless the sum with the byte runs past 32 bits, which it does behind some names. -/
theorem hash_is_low_bits_of_linkerHash :
    (∀ name, (hash name).toNat < 268435456 ∧ hash name = looseHash name ∧
      (hash name).toNat = linkerHash name % 268435456) ∧
    (∀ name (byte : UInt8), hash (name.push byte) = step (hash name) byte ∧
      (hash name <<< 4).toNat = 16 * (hash name).toNat ∧
      ((hash name <<< 4) + byte.toUInt32).toNat =
        (16 * (hash name).toNat + byte.toNat) % UInt32.size) ∧
    ∃ name, ∃ byte : UInt8, UInt32.size ≤ 16 * (hash name).toNat + byte.toNat := by
  refine ⟨?_, ?_, ?_⟩
  · intro name
    exact ⟨hash_lt name, hash_eq_looseHash name, toNat_hash name⟩
  · intro name byte
    have bound := hash_lt name
    have size : UInt32.size = 4294967296 := rfl
    refine ⟨Array.foldl_push, ?_, toNat_mixed (hash name) byte⟩
    rw [toNat_shiftLeft_four, size]
    exact Nat.mod_eq_of_lt (by omega)
  · exact ⟨Array.replicate 7 15, 255, by decide⟩

end ElfLens.SymbolHash
