set_option autoImplicit false

namespace ElfLens

/-- The order in which the bytes of a number are stored. -/
inductive Endian where
  /-- The lowest byte comes first. -/
  | little
  /-- The highest byte comes first. -/
  | big
  deriving DecidableEq, Repr

namespace Endian

/-- The number whose digits to base 256, lowest first, are the bytes. -/
def ofDigits : List UInt8 → Nat
  | [] => 0
  | digit :: rest => digit.toNat + 256 * ofDigits rest

/-- The lowest `width` digits of a number to base 256, lowest first. -/
def toDigits : Nat → Nat → List UInt8
  | 0, _ => []
  | width + 1, n => n.toUInt8 :: toDigits width (n / 256)

def value (order : Endian) (bytes : List UInt8) : Nat :=
  match order with
  | little => ofDigits bytes
  | big => ofDigits bytes.reverse

/-- The `width` bytes that stand for a number. -/
def spell (order : Endian) (width n : Nat) : List UInt8 :=
  match order with
  | little => toDigits width n
  | big => (toDigits width n).reverse

def spell16 (order : Endian) (n : UInt16) : List UInt8 := order.spell 2 n.toNat

def spell32 (order : Endian) (n : UInt32) : List UInt8 := order.spell 4 n.toNat

/-- How many numbers there are of `width` bytes. -/
def capacity (width : Nat) : Nat := Nat.pow 256 width

theorem capacity_succ (width : Nat) : capacity (width + 1) = 256 * capacity width :=
  Nat.pow_succ'

theorem length_toDigits (width n : Nat) : (toDigits width n).length = width := by
  induction width generalizing n with
  | zero => rfl
  | succ width ih => simp [toDigits, ih]

theorem ofDigits_lt (bytes : List UInt8) : ofDigits bytes < capacity bytes.length := by
  induction bytes with
  | nil => exact Nat.one_pos
  | cons digit rest ih =>
    have := digit.toNat_lt
    rw [ofDigits, List.length_cons, capacity_succ]
    omega

theorem ofDigits_toDigits (width n : Nat) : ofDigits (toDigits width n) = n % capacity width := by
  induction width generalizing n with
  | zero => exact (Nat.mod_one n).symm
  | succ width ih =>
    simp only [toDigits, ofDigits, ih, Nat.toUInt8, UInt8.toNat_ofNat', Nat.reducePow]
    rw [capacity_succ, Nat.mod_mul]

theorem toDigits_ofDigits (bytes : List UInt8) :
    toDigits bytes.length (ofDigits bytes) = bytes := by
  induction bytes with
  | nil => rfl
  | cons digit rest ih =>
    have bound := digit.toNat_lt
    have low : (digit.toNat + 256 * ofDigits rest).toUInt8 = digit := by
      apply UInt8.toNat_inj.mp
      simp only [Nat.toUInt8, UInt8.toNat_ofNat']
      omega
    have high : (digit.toNat + 256 * ofDigits rest) / 256 = ofDigits rest := by omega
    rw [ofDigits, List.length_cons, toDigits, low, high, ih]

theorem length_spell (order : Endian) (width n : Nat) : (order.spell width n).length = width := by
  cases order <;> simp [spell, length_toDigits]

theorem value_lt (order : Endian) (bytes : List UInt8) :
    order.value bytes < capacity bytes.length := by
  cases order
  · exact ofDigits_lt bytes
  · simpa [value] using ofDigits_lt bytes.reverse

theorem value_spell (order : Endian) (width n : Nat) :
    order.value (order.spell width n) = n % capacity width := by
  cases order <;> simp [value, spell, ofDigits_toDigits]

theorem value_spell_of_lt (order : Endian) {width n : Nat} (bound : n < capacity width) :
    order.value (order.spell width n) = n := by
  rw [value_spell, Nat.mod_eq_of_lt bound]

theorem spell_value (order : Endian) (bytes : List UInt8) :
    order.spell bytes.length (order.value bytes) = bytes := by
  cases order
  · exact toDigits_ofDigits bytes
  · have reversed := toDigits_ofDigits bytes.reverse
    rw [List.length_reverse] at reversed
    simp [value, spell, reversed]

end Endian
end ElfLens
