set_option autoImplicit false

namespace ElfLens

/-- The course of a search: the elements asked about, in order, and the one found. -/
structure Search (α : Type) where
  asked : List α
  found : Option α
  deriving DecidableEq, Repr

namespace Search

variable {α : Type}

/-- Asks about the elements in order until one of them answers. -/
def run (answers : α → Bool) : List α → Search α
  | [] => ⟨[], none⟩
  | x :: rest =>
    if answers x then ⟨[x], some x⟩
    else
      let later := run answers rest
      ⟨x :: later.asked, later.found⟩

theorem found_run (answers : α → Bool) (xs : List α) :
    (run answers xs).found = xs.find? answers := by
  induction xs with
  | nil => rfl
  | cons x rest ih => by_cases h : answers x <;> simp [run, h, ih]

theorem asked_isPrefix (answers : α → Bool) (xs : List α) : (run answers xs).asked <+: xs := by
  induction xs with
  | nil => simp [run]
  | cons x rest ih => by_cases h : answers x <;> simp [run, h, ih]

/-- Only the last element asked about can have answered. -/
theorem not_answers_of_mem_dropLast (answers : α → Bool) (xs : List α) {x : α}
    (earlier : x ∈ (run answers xs).asked.dropLast) : answers x = false := by
  induction xs with
  | nil => simp [run] at earlier
  | cons y rest ih =>
    by_cases h : answers y
    · simp [run, h] at earlier
    · simp only [run, h, Bool.false_eq_true, ↓reduceIte] at earlier
      cases later : (run answers rest).asked with
      | nil => simp [later] at earlier
      | cons z more =>
        rw [later, List.dropLast_cons_cons, List.mem_cons] at earlier
        rcases earlier with rfl | earlier
        · simpa using h
        · exact ih (by rwa [later])

end Search
end ElfLens
