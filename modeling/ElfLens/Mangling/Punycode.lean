import ElfLens.Text.CodePoint
/-!
Text whose characters beyond ASCII are written as insertions. Each insertion is a number to base
thirty-six that says how far to go, round after round through the text, before the next character
goes in; every round raises the number of that character by one.
-/

set_option autoImplicit false

namespace ElfLens.Mangling.Punycode

def digit? (c : Char) : Option Nat :=
  if 'a' ≤ c ∧ c ≤ 'z' then some (c.toNat - 'a'.toNat)
  else if '0' ≤ c ∧ c ≤ '9' then some (c.toNat - '0'.toNat + 26)
  else none

/-- A digit below the threshold of its place is the last one of its number. -/
def threshold (bias place : Nat) : Nat := min (max (place - bias) 1) 26

/-- Reads the rest of a number whose digits so far come to `total`. The digit at `place` counts
`weight` times. -/
def number? (bias : Nat) : (place weight total : Nat) → List Char → Option (Nat × List Char)
  | _, _, _, [] => none
  | place, weight, total, c :: rest =>
    (digit? c).bind fun digit =>
      let sum := total + digit * weight
      let bound := threshold bias place
      if digit < bound then some (sum, rest)
      else number? bias (place + 36) (weight * (36 - bound)) sum rest

/-- The bias that a distance leads to once it is scaled down. -/
def settle (distance place : Nat) : Nat :=
  if 455 < distance then settle (distance / 35) (place + 36)
  else place + 36 * distance / (distance + 38)
termination_by distance
decreasing_by omega

/-- The bias for the next number, after an insertion that leaves `length` characters. -/
def adapt (distance length : Nat) (isFirst : Bool) : Nat :=
  let scaled := distance / (if isFirst then 700 else 2)
  settle (scaled + scaled / length) 0

theorem length_of_number? {bias place weight total value : Nat} {text rest : List Char}
    (success : number? bias place weight total text = some (value, rest)) :
    rest.length < text.length := by
  induction text generalizing place weight total with
  | nil => simp [number?] at success
  | cons c tail ih =>
    simp only [number?, Option.bind_eq_some_iff] at success
    obtain ⟨digit, -, found⟩ := success
    split at found
    · simp only [Option.some.injEq, Prod.mk.injEq] at found
      simp [← found.2]
    · have := ih found
      simp only [List.length_cons]
      omega

/-- A text into which characters are inserted. -/
structure Draft where
  text : List Char
  /-- The number of the character inserted last. -/
  code : Nat
  /-- Where the search for the next place starts. -/
  position : Nat
  bias : Nat
  isFirst : Bool

def Draft.ofPlain (plain : List Char) : Draft := ⟨plain, 0x80, 0, 72, true⟩

/-- Inserts the character that is `distance` steps away. -/
def Draft.insert? (draft : Draft) (distance : Nat) : Option Draft :=
  let length := draft.text.length + 1
  let goal := draft.position + distance
  let code := draft.code + goal / length
  (Text.charOfCode? code).map fun c => {
    text := draft.text.insertIdx (goal % length) c
    code
    position := goal % length + 1
    bias := adapt distance length draft.isFirst
    isFirst := false }

/-- Carries out all insertions, as long as the text stays within `limit` characters. -/
def insertAll? (limit : Nat) (draft : Draft) (insertions : List Char) : Option (List Char) :=
  if limit < draft.text.length then none
  else if insertions.isEmpty then some draft.text
  else
    match found : number? draft.bias 36 1 0 insertions with
    | none => none
    | some (distance, rest) =>
      have := length_of_number? found
      (draft.insert? distance).bind fun next => insertAll? limit next rest
termination_by insertions.length

/-- The text of at most `limit` characters that the plain characters and at least one insertion
give. -/
def decode? (limit : Nat) (plain insertions : List Char) : Option (List Char) :=
  if insertions.isEmpty then none else insertAll? limit (.ofPlain plain) insertions

end ElfLens.Mangling.Punycode
