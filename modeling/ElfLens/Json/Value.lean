import ElfLens.Word

set_option autoImplicit false

namespace ElfLens.Json

inductive Value where
  | null
  | bool (value : Bool)
  /-- A number, by its spelling. -/
  | number (spelling : List Char)
  /-- A string, by its text; half of a surrogate pair leaves it without one. -/
  | string (text? : Option String)
  | array (items : List Value)
  | object (members : List (Option String × Value))

namespace Value

/-- The number as a natural number of 64 bits; a sign, a fraction or an exponent excludes it. -/
def word? : Value → Option UInt64
  | number spelling =>
    if spelling.all Char.isDigit then Word.ofNat? (Nat.ofDigitChars 10 spelling 0) else none
  | _ => none

def ofWord (word : UInt64) : Value := number (Nat.toDigits 10 word.toNat)

def bool? : Value → Option Bool
  | bool value => some value
  | _ => none

/-- The values given for the fields of a record: by name in an object, where every name has to be a
text, no field may be given twice and other members are passed over, and by position in an array. -/
def fields? (names : List String) : Value → Option (List (String × Value))
  | array items => if items.length ≤ names.length then some (names.zip items) else none
  | object members => do
    let named ← members.mapM fun (key?, value) => key?.map (·, value)
    let known := named.filter (names.contains ·.1)
    if (known.map (·.1)).Nodup then some known else none
  | _ => none

theorem word?_ofWord (word : UInt64) : (ofWord word).word? = some word := by
  have digits : (Nat.toDigits 10 word.toNat).all Char.isDigit :=
    List.all_eq_true.mpr fun c listed => Nat.isDigit_of_mem_toDigits (by decide) (by decide) listed
  simp only [ofWord, word?, digits, ↓reduceIte, Nat.ofDigitChars_ten_toDigits, Word.ofNat?_toNat]

end Value
end ElfLens.Json
