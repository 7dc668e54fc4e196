set_option autoImplicit false

namespace ElfLens.Text

/-- The ranges of code points with the White_Space property, ends included. -/
def blankRanges : List (Nat × Nat) := [
  (0x09, 0x0d), (0x20, 0x20), (0x85, 0x85), (0xa0, 0xa0), (0x1680, 0x1680), (0x2000, 0x200a),
  (0x2028, 0x2029), (0x202f, 0x202f), (0x205f, 0x205f), (0x3000, 0x3000)]

def isBlank (c : Char) : Bool :=
  blankRanges.any fun (first, last) => first ≤ c.toNat ∧ c.toNat ≤ last

/-- A text without the blanks at its start. -/
def trimStart (text : List Char) : List Char := text.dropWhile isBlank

/-- A text without the blanks at either end. -/
def trim (text : List Char) : List Char := (trimStart (trimStart text).reverse).reverse

/-- A text that no blank interrupts. -/
def IsWord (text : List Char) : Prop := text ≠ [] ∧ ∀ c ∈ text, isBlank c = false

/-- The first word of a text and what follows the word. -/
def nextWord? (text : List Char) : Option (List Char × List Char) :=
  match trimStart text with
  | [] => none
  | c :: rest => some ((c :: rest).span fun c => ! isBlank c)

theorem trimStart_trimStart (text : List Char) : trimStart (trimStart text) = trimStart text := by
  unfold trimStart
  induction text with
  | nil => rfl
  | cons c rest ih => by_cases h : isBlank c <;> simp [h, ih]

theorem isSuffix_trimStart (text : List Char) : trimStart text <:+ text :=
  List.dropWhile_suffix isBlank

theorem not_isBlank_head_trimStart {text : List Char} {c : Char} {rest : List Char}
    (shape : trimStart text = c :: rest) : isBlank c = false := by
  unfold trimStart at shape
  induction text with
  | nil => simp at shape
  | cons d more ih =>
    by_cases h : isBlank d
    · simp only [List.dropWhile_cons, h, ↓reduceIte] at shape
      exact ih shape
    · simp only [List.dropWhile_cons, h, Bool.false_eq_true, ↓reduceIte] at shape
      injection shape with same
      simpa [same] using h

theorem isPrefix_trim (text : List Char) : trim text <+: trimStart text := by
  have kept := isSuffix_trimStart (trimStart text).reverse
  simpa [trim] using List.reverse_prefix.mpr kept

theorem not_isBlank_head_trim {text : List Char} {c : Char} {rest : List Char}
    (shape : trim text = c :: rest) : isBlank c = false := by
  obtain ⟨tail, whole⟩ := isPrefix_trim text
  rw [shape, List.cons_append] at whole
  exact not_isBlank_head_trimStart whole.symm

end ElfLens.Text
