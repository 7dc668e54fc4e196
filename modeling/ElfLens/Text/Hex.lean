import ElfLens.Word

set_option autoImplicit false

namespace ElfLens.Text

/-- The lower-case digits of a number to base sixteen, without leading zeros. -/
def hexDigits (n : Nat) : String := String.ofList (Nat.toDigits 16 n)

/-- A number to base sixteen behind the marker. -/
def hex (n : Nat) : String := "0x" ++ hexDigits n

/-- A byte as two lower-case digits. -/
def hexByte (byte : UInt8) : List Char :=
  [Nat.digitChar (byte.toNat / 16), Nat.digitChar (byte.toNat % 16)]

/-- The value of a digit to a base up to sixteen, in either case. -/
def digitValue? (base : Nat) (c : Char) : Option Nat :=
  let value :=
    if '0' ≤ c ∧ c ≤ '9' then c.toNat - '0'.toNat
    else if 'a' ≤ c ∧ c ≤ 'f' then c.toNat - 'a'.toNat + 10
    else if 'A' ≤ c ∧ c ≤ 'F' then c.toNat - 'A'.toNat + 10
    else base
  if value < base then some value else none

/-- The number that a run of digits continues `start` to. -/
def extendDigits? (base start : Nat) : List Char → Option Nat
  | [] => some start
  | c :: rest =>
    (digitValue? base c).bind fun value => extendDigits? base (base * start + value) rest

/-- The number that a nonempty run of digits stands for. -/
def digits? (base : Nat) : List Char → Option Nat
  | [] => none
  | text => extendDigits? base 0 text

/-- The number that a text stands for: one plus sign at most, then digits. -/
def unsigned? (base : Nat) : List Char → Option Nat
  | '+' :: rest => digits? base rest
  | text => digits? base text

/-- The same number as a word. -/
def word? (base : Nat) (text : List Char) : Option UInt64 :=
  (unsigned? base text).bind Word.ofNat?

theorem extendDigits?_append (base start : Nat) (front back : List Char) :
    extendDigits? base start (front ++ back) =
      (extendDigits? base start front).bind fun n => extendDigits? base n back := by
  induction front generalizing start with
  | nil => rfl
  | cons c rest ih =>
    simp only [List.cons_append, extendDigits?]
    cases digitValue? base c <;> simp [ih]

theorem digitValue?_digitChar {base n : Nat} (small : base ≤ 16) (digit : n < base) :
    digitValue? base n.digitChar = some n := by
  have all : ∀ base < 17, ∀ n < base, digitValue? base n.digitChar = some n := by decide
  exact all base (by omega) n digit

theorem digits?_toDigits {base : Nat} (least : 1 < base) (small : base ≤ 16) (n : Nat) :
    digits? base (Nat.toDigits base n) = some n := by
  have extended : extendDigits? base 0 (Nat.toDigits base n) = some n := by
    induction n using Nat.strongRecOn with
    | ind n ih =>
      rw [Nat.toDigits_eq_if least]
      split
      · rename_i single
        simp [extendDigits?, digitValue?_digitChar small single]
      · rename_i more
        have smaller := Nat.div_lt_self (show 0 < n by omega) least
        have digit := digitValue?_digitChar small (Nat.mod_lt n (show 0 < base by omega))
        rw [extendDigits?_append, ih _ smaller]
        simp [extendDigits?, digit, Nat.div_add_mod]
  cases shape : Nat.toDigits base n with
  | nil => simp at shape
  | cons c rest => rw [digits?, ← shape, extended]; simp

end ElfLens.Text
