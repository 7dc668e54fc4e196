import ElfLens.SymbolHash
import Mathlib.Data.Fintype.Pigeonhole

set_option autoImplicit false

namespace ElfLens.HashTable

/-- The link that follows a link on its chain. -/
def next? (table : HashTable) (index : UInt32) : Option UInt32 :=
  table.chains[index.toNat]?.filter table.isLink

theorem isLink_iff (table : HashTable) (index : UInt32) :
    table.isLink index = true ↔ index ≠ 0 ∧ index.toNat < table.chains.size := by
  simp only [isLink, Bool.decide_and, Bool.and_eq_true, decide_eq_true_eq]

theorem onChain?_succ (table : HashTable) (name : Bytes) (steps : Nat) :
    table.onChain? name (steps + 1) = (table.onChain? name steps).bind table.next? := rfl

theorem chainFrom_succ_of_link (table : HashTable) (steps : Nat) (index next : UInt32)
    (nonzero : index ≠ 0) (link : table.chains[index.toNat]? = some next) :
    table.chainFrom (steps + 1) index = index :: table.chainFrom steps next := by
  rw [chainFrom, if_neg nonzero, link]

theorem chainFrom_succ_of_not_link (table : HashTable) (steps : Nat) (index : UInt32)
    (ended : ¬ table.isLink index) : table.chainFrom (steps + 1) index = [] := by
  rw [chainFrom]
  split
  · rfl
  · rename_i nonzero
    have outside : table.chains.size ≤ index.toNat := by
      apply Nat.le_of_not_lt
      intro inside
      exact ended ((table.isLink_iff index).mpr ⟨nonzero, inside⟩)
    rw [Array.getElem?_eq_none outside]

/-- A link continues its chain with the index stored for it. -/
theorem exists_chainFrom_of_link (table : HashTable) (steps : Nat) (index : UInt32)
    (link : table.isLink index) :
    ∃ next, table.chains[index.toNat]? = some next ∧
      table.chainFrom (steps + 1) index = index :: table.chainFrom steps next := by
  obtain ⟨nonzero, inside⟩ := (table.isLink_iff index).mp link
  have stored := Array.getElem?_eq_getElem inside
  exact ⟨_, stored, table.chainFrom_succ_of_link steps index _ nonzero stored⟩

theorem getElem?_chainFrom_zero (table : HashTable) (steps : Nat) (index : UInt32) :
    (table.chainFrom (steps + 1) index)[0]? = (some index).filter table.isLink := by
  by_cases link : table.isLink index
  · obtain ⟨next, -, walked⟩ := table.exists_chainFrom_of_link steps index link
    rw [walked, List.getElem?_cons_zero, Option.filter_some, if_pos link]
  · rw [table.chainFrom_succ_of_not_link steps index link, Option.filter_some, if_neg link]
    rfl

/-- Inside the bound, each step of the walk goes from a link to the one that follows it. -/
theorem getElem?_chainFrom_succ (table : HashTable) (steps position : Nat) (index : UInt32)
    (bound : position + 1 < steps) :
    (table.chainFrom steps index)[position + 1]? =
      (table.chainFrom steps index)[position]?.bind table.next? := by
  induction position generalizing steps index with
  | zero =>
      obtain ⟨more, rfl⟩ : ∃ more, steps = more + 2 := ⟨steps - 2, by omega⟩
      by_cases link : table.isLink index
      · obtain ⟨next, stored, walked⟩ := table.exists_chainFrom_of_link (more + 1) index link
        rw [walked, List.getElem?_cons_succ, List.getElem?_cons_zero,
          getElem?_chainFrom_zero, Option.bind_some, next?, stored]
      · rw [table.chainFrom_succ_of_not_link (more + 1) index link]
        rfl
  | succ position ih =>
      obtain ⟨more, rfl⟩ : ∃ more, steps = more + 1 := ⟨steps - 1, by omega⟩
      by_cases link : table.isLink index
      · obtain ⟨next, -, walked⟩ := table.exists_chainFrom_of_link more index link
        rw [walked, List.getElem?_cons_succ, List.getElem?_cons_succ]
        exact ih more next (by omega)
      · rw [table.chainFrom_succ_of_not_link more index link]
        rfl

/-- Inside the bound, the bounded walk is the unbounded one. -/
theorem getElem?_candidates (table : HashTable) (name : Bytes) (position : Nat)
    (bound : position < table.chains.size) :
    (table.candidates name)[position]? = table.onChain? name position := by
  unfold candidates
  cases head : table.bucket? name with
  | none =>
      induction position with
      | zero => rw [onChain?, head]; rfl
      | succ position ih =>
          rw [onChain?_succ, ← ih (by omega)]
          rfl
  | some index =>
      induction position with
      | zero =>
          obtain ⟨more, size⟩ : ∃ more, table.chains.size = more + 1 :=
            ⟨table.chains.size - 1, by omega⟩
          rw [onChain?, head, size]
          exact table.getElem?_chainFrom_zero more index
      | succ position ih =>
          rw [table.getElem?_chainFrom_succ _ _ _ bound, onChain?_succ]
          exact congrArg (Option.bind · table.next?) (ih (by omega))

/-- A walk that has come to the same link twice goes on in the same way both times. -/
theorem onChain?_add_eq (table : HashTable) (name : Bytes) {first second : Nat}
    (same : table.onChain? name first = table.onChain? name second) (more : Nat) :
    table.onChain? name (first + more) = table.onChain? name (second + more) := by
  induction more with
  | zero => exact same
  | succ more ih =>
      rw [← Nat.add_assoc, ← Nat.add_assoc, onChain?_succ, onChain?_succ, ih]

/-- A walk that comes somewhere has come somewhere at every earlier step. -/
theorem exists_onChain?_of_le (table : HashTable) (name : Bytes) {earlier later : Nat}
    {index : UInt32} (order : earlier ≤ later)
    (reached : table.onChain? name later = some index) :
    ∃ passed, table.onChain? name earlier = some passed := by
  induction later generalizing index with
  | zero =>
      obtain rfl : earlier = 0 := by omega
      exact ⟨index, reached⟩
  | succ later ih =>
      by_cases last : earlier = later + 1
      · exact ⟨index, last ▸ reached⟩
      · obtain ⟨passed, before, -⟩ := Option.bind_eq_some_iff.mp reached
        exact ih (by omega) before

/-- There are only so many links, so a longer walk has come to one of them twice. -/
theorem exists_onChain?_repeat (table : HashTable) (name : Bytes) {steps : Nat} {index : UInt32}
    (long : table.chains.size ≤ steps) (reached : table.onChain? name steps = some index) :
    ∃ first second, first < second ∧ second ≤ table.chains.size ∧
      table.onChain? name first = table.onChain? name second := by
  have passes : ∀ position : Fin (table.chains.size + 1),
      ∃ passed : Fin table.chains.size,
        (table.onChain? name position).map UInt32.toNat = some passed.val := by
    intro position
    obtain ⟨passed, before⟩ :=
      table.exists_onChain?_of_le name (show position.val ≤ steps by omega) reached
    have inside := ((table.isLink_iff passed).mp (onChain?_isLink before)).2
    exact ⟨⟨passed.toNat, inside⟩, by rw [before]; rfl⟩
  choose place stands using passes
  obtain ⟨a, b, apart, same⟩ := Fintype.exists_ne_map_eq_of_card_lt place (by simp)
  have numbers : (table.onChain? name a).map UInt32.toNat =
      (table.onChain? name b).map UInt32.toNat := by
    rw [stands a, stands b, same]
  have links := Option.map_injective (fun _ _ => UInt32.toNat_inj.mp) numbers
  rcases Nat.lt_or_gt_of_ne (Fin.val_ne_of_ne apart) with before | after
  · exact ⟨a, b, before, by omega, links⟩
  · exact ⟨b, a, after, by omega, links.symm⟩

/-- Every link on the chain is come to within the bound. -/
theorem exists_onChain?_lt_size (table : HashTable) (name : Bytes) {steps : Nat} {index : UInt32}
    (reached : table.onChain? name steps = some index) :
    ∃ position, position < table.chains.size ∧ table.onChain? name position = some index := by
  induction steps using Nat.strongRecOn with
  | ind steps ih =>
      by_cases short : steps < table.chains.size
      · exact ⟨steps, short, reached⟩
      · -- Leaving out the circle between the two visits shortens the walk.
        obtain ⟨first, second, order, bound, same⟩ :=
          table.exists_onChain?_repeat name (by omega) reached
        have shorter := table.onChain?_add_eq name same (steps - second)
        rw [show second + (steps - second) = steps by omega, reached] at shorter
        exact ih (first + (steps - second)) (by omega) shorter

theorem length_candidates_le (table : HashTable) (name : Bytes) :
    (table.candidates name).length ≤ table.chains.size := by
  unfold candidates
  split
  · exact Nat.zero_le _
  · exact table.length_chainFrom_le _ _

/-- The links that are asked about are those that the walk ever comes to. -/
theorem mem_candidates_iff (table : HashTable) (name : Bytes) (index : UInt32) :
    index ∈ table.candidates name ↔ ∃ steps, table.onChain? name steps = some index := by
  constructor
  · intro listed
    obtain ⟨position, bound, stands⟩ := List.getElem_of_mem listed
    have short : position < table.chains.size :=
      Nat.lt_of_lt_of_le bound (table.length_candidates_le name)
    refine ⟨position, ?_⟩
    rw [← table.getElem?_candidates name position short, List.getElem?_eq_getElem bound, stands]
  · rintro ⟨steps, reached⟩
    obtain ⟨position, short, stands⟩ := table.exists_onChain?_lt_size name reached
    rw [← table.getElem?_candidates name position short] at stands
    exact List.mem_of_getElem? stands

/-- The search gives a link of the chain that carries the name. -/
theorem of_lookup_eq_some (table : HashTable) (name : Bytes) (carries : UInt32 → Bool)
    {index : UInt32} (found : table.lookup name carries = some index) :
    (∃ steps, table.onChain? name steps = some index) ∧ table.isLink index ∧
      carries index = true := by
  rw [lookup, search, Search.found_run] at found
  obtain ⟨steps, reached⟩ :=
    (table.mem_candidates_iff name index).mp (List.mem_of_find?_eq_some found)
  exact ⟨⟨steps, reached⟩, onChain?_isLink reached, List.find?_some found⟩

/-- The search gives up only when no link of the chain carries the name. -/
theorem lookup_eq_none_iff (table : HashTable) (name : Bytes) (carries : UInt32 → Bool) :
    table.lookup name carries = none ↔
      ∀ steps index, table.onChain? name steps = some index → carries index = false := by
  rw [lookup, search, Search.found_run, List.find?_eq_none]
  constructor
  · intro refused steps index reached
    simpa using refused index ((table.mem_candidates_iff name index).mpr ⟨steps, reached⟩)
  · intro refused index listed
    obtain ⟨steps, reached⟩ := (table.mem_candidates_iff name index).mp listed
    simp [refused steps index reached]

end ElfLens.HashTable
