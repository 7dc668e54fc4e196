set_option autoImplicit false

namespace ElfLens.Word

/-- The sum, when it is below `2 ^ 64`. -/
def plus? (a b : UInt64) : Option UInt64 :=
  if a.toNat + b.toNat < UInt64.size then some (a + b) else none

/-- The difference, when it is not negative. -/
def minus? (a b : UInt64) : Option UInt64 :=
  if b ≤ a then some (a - b) else none

/-- The product, when it is below `2 ^ 64`. -/
def times? (a b : UInt64) : Option UInt64 :=
  if a.toNat * b.toNat < UInt64.size then some (a * b) else none

/-- The quotient rounded down, when the divisor is not zero. -/
def over? (a b : UInt64) : Option UInt64 :=
  if b = 0 then none else some (a / b)

def top : UInt64 := 0xffffffffffffffff

def ofNat? (n : Nat) : Option UInt64 :=
  if n < UInt64.size then some n.toUInt64 else none

/-- A number as a word, with every number that does not fit taken to the largest word. -/
def capped (n : Nat) : UInt64 :=
  if n < UInt64.size then n.toUInt64 else top

theorem size_eq : UInt64.size = 18446744073709551616 := rfl

theorem toNat_add_of_fits {a b : UInt64} (fits : a.toNat + b.toNat < UInt64.size) :
    (a + b).toNat = a.toNat + b.toNat := by
  rw [UInt64.toNat_add]
  exact Nat.mod_eq_of_lt fits

theorem ofNat?_eq_some_iff {n : Nat} {w : UInt64} : ofNat? n = some w ↔ w.toNat = n := by
  unfold ofNat?
  have := w.toNat_lt; have := size_eq
  split
  · rename_i fits
    rw [Option.some.injEq, ← UInt64.toNat_inj, Nat.toUInt64, UInt64.toNat_ofNat']
    omega
  · simp; omega

theorem ofNat?_toNat (w : UInt64) : ofNat? w.toNat = some w := ofNat?_eq_some_iff.mpr rfl

theorem plus?_eq_some_iff {a b c : UInt64} :
    plus? a b = some c ↔ c.toNat = a.toNat + b.toNat := by
  unfold plus?
  have := a.toNat_lt; have := b.toNat_lt; have := c.toNat_lt; have := size_eq
  split
  · rename_i fits
    rw [Option.some.injEq, ← UInt64.toNat_inj, UInt64.toNat_add]
    omega
  · simp; omega

theorem plus?_eq_none_iff {a b : UInt64} :
    plus? a b = none ↔ UInt64.size ≤ a.toNat + b.toNat := by
  unfold plus?; split <;> simp <;> omega

theorem minus?_eq_some_iff {a b c : UInt64} :
    minus? a b = some c ↔ a.toNat = b.toNat + c.toNat := by
  unfold minus?
  have := a.toNat_lt; have := b.toNat_lt; have := c.toNat_lt
  split
  · rename_i le
    rw [Option.some.injEq, ← UInt64.toNat_inj, UInt64.toNat_sub_of_le _ _ le]
    have := UInt64.le_iff_toNat_le.mp le
    omega
  · rename_i le
    rw [UInt64.le_iff_toNat_le] at le
    simp; omega

theorem minus?_eq_none_iff {a b : UInt64} : minus? a b = none ↔ a < b := by
  unfold minus?; split <;> simp_all

theorem times?_eq_some_iff {a b c : UInt64} :
    times? a b = some c ↔ c.toNat = a.toNat * b.toNat := by
  unfold times?
  have := c.toNat_lt; have := size_eq
  split
  · rename_i fits
    rw [Option.some.injEq, ← UInt64.toNat_inj, UInt64.toNat_mul, Nat.mod_eq_of_lt fits]
    exact eq_comm
  · simp; omega

theorem times?_eq_none_iff {a b : UInt64} :
    times? a b = none ↔ UInt64.size ≤ a.toNat * b.toNat := by
  unfold times?; split <;> simp <;> omega

theorem toNat_times?_getD {a b : UInt64} (nonzero : (times? a b).getD 0 ≠ 0) :
    ((times? a b).getD 0).toNat = a.toNat * b.toNat := by
  cases product : times? a b with
  | none =>
      rw [product] at nonzero
      exact absurd rfl nonzero
  | some c => exact times?_eq_some_iff.mp product

theorem over?_eq_some_iff {a b c : UInt64} :
    over? a b = some c ↔ b ≠ 0 ∧ c.toNat = a.toNat / b.toNat := by
  unfold over?
  split
  · simp_all
  · rename_i pos
    rw [Option.some.injEq, ← UInt64.toNat_inj, UInt64.toNat_div]
    simp [pos, eq_comm]

theorem toNat_capped (n : Nat) : (capped n).toNat = min n (UInt64.size - 1) := by
  unfold capped
  split
  · rename_i fits
    simp only [Nat.toUInt64, UInt64.toNat_ofNat', Nat.mod_eq_of_lt fits]
    omega
  · have : top.toNat = UInt64.size - 1 := rfl
    omega

theorem toNat_min (a b : UInt64) : (min a b).toNat = min a.toNat b.toNat := by
  change (if a ≤ b then a else b).toNat = _
  by_cases ordered : a ≤ b
  · rw [if_pos ordered, Nat.min_eq_left (UInt64.le_iff_toNat_le.mp ordered)]
  · rw [if_neg ordered]
    rw [UInt64.le_iff_toNat_le] at ordered
    omega

end ElfLens.Word
