import ElfLens.Bytes.Basic
import ElfLens.Config.Basic

set_option autoImplicit false

namespace ElfLens

/-- A mapped range of addresses. -/
structure Region where
  start : UInt64
  stop : UInt64
  perms : String
  offset : UInt64
  device : String
  inode : UInt64
  name : String
  deriving DecidableEq, Repr

namespace Region

/-- The number of addresses; a region that ends before it starts has none. -/
def byteSize (region : Region) : UInt64 :=
  if region.start ≤ region.stop then region.stop - region.start else 0

def allows (region : Region) (position : Nat) (mark : UInt8) : Bool :=
  (Bytes.ofText region.perms)[position]? = some mark

def isReadable (region : Region) : Bool := region.allows 0 0x72

def isWritable (region : Region) : Bool := region.allows 1 0x77

def isExecutable (region : Region) : Bool := region.allows 2 0x78

/-- What is written to the region stays with the process. -/
def isPrivate (region : Region) : Bool := region.allows 3 0x70

def path? (region : Region) : Option String :=
  if region.name.toList.head? = some '/' then some region.name else none

/-- The second region carries on the first one. -/
def Continues (first second : Region) : Prop :=
  first.name = second.name ∧ first.stop = second.start

instance (first second : Region) : Decidable (first.Continues second) :=
  inferInstanceAs (Decidable (_ ∧ _))

/-- Joins a region with those that carry it on, and so forth. -/
def joinFrom (current : Region) : List Region → List Region
  | [] => [current]
  | next :: rest =>
    if current.Continues next then joinFrom { current with stop := next.stop } rest
    else current :: joinFrom next rest

/-- Joins every run of regions that carry each other on. -/
def coalesce : List Region → List Region
  | [] => []
  | region :: rest => joinFrom region rest

/-- The regions that a policy keeps, joined if it says so. -/
def retain (policy : RegionPolicy) (regions : List Region) : List Region :=
  let kept := if policy.executableOnly then regions.filter (·.isExecutable) else regions
  if policy.coalesce then coalesce kept else kept

theorem joinFrom_of_continues {current next : Region} (follows : current.Continues next)
    (rest : List Region) :
    joinFrom current (next :: rest) = joinFrom { current with stop := next.stop } rest := by
  rw [joinFrom, if_pos follows]

theorem joinFrom_of_not_continues {current next : Region} (apart : ¬ current.Continues next)
    (rest : List Region) : joinFrom current (next :: rest) = current :: joinFrom next rest := by
  rw [joinFrom, if_neg apart]

/-- The first region that joining gives starts where the first one did, under the same name. -/
theorem head_joinFrom (current : Region) (rest : List Region) :
    ∃ first more, joinFrom current rest = first :: more ∧
      first.name = current.name ∧ first.start = current.start := by
  induction rest generalizing current with
  | nil => exact ⟨current, [], rfl, rfl, rfl⟩
  | cons next rest ih =>
    by_cases follows : current.Continues next
    · obtain ⟨first, more, shape, name, start⟩ := ih { current with stop := next.stop }
      exact ⟨first, more, by rw [joinFrom_of_continues follows, shape], name, start⟩
    · exact ⟨current, _, joinFrom_of_not_continues follows rest, rfl, rfl⟩

theorem coalesce_joinFrom_append (current : Region) (front back : List Region) :
    coalesce (joinFrom current front ++ back) = joinFrom current (front ++ back) := by
  induction front generalizing current with
  | nil => rfl
  | cons next rest ih =>
    by_cases follows : current.Continues next
    · rw [List.cons_append, joinFrom_of_continues follows, joinFrom_of_continues follows, ih]
    · rw [List.cons_append, joinFrom_of_not_continues follows, joinFrom_of_not_continues follows,
        ← ih next]
      obtain ⟨first, more, shape, name, start⟩ := head_joinFrom next rest
      have apart : ¬ current.Continues first := fun both =>
        follows ⟨both.1.trans name, both.2.trans start⟩
      rw [shape, List.cons_append, List.cons_append, coalesce, joinFrom_of_not_continues apart]
      rfl

/-- Regions can be joined as they come. -/
theorem coalesce_append (front back : List Region) :
    coalesce (coalesce front ++ back) = coalesce (front ++ back) := by
  cases front with
  | nil => rfl
  | cons region rest => exact coalesce_joinFrom_append region rest back

end Region
end ElfLens
