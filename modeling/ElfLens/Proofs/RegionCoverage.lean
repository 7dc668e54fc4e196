import ElfLens.Proofs.RegionRuns
import Mathlib.Data.List.Chain

set_option autoImplicit false

namespace ElfLens

namespace Region

/-- No region carries on the one before it. -/
def IsJoined (regions : List Region) : Prop :=
  regions.IsChain fun first second => ¬ first.Continues second

/-- The regions carry each other on, all under one name, and the joined region is the first of them
up to where the last one stops. -/
structure IsRun (run : List Region) (joined : Region) : Prop where
  chain : run.IsChain Continues
  name : ∀ region ∈ run, region.name = joined.name
  ends : ∃ first last, run.head? = some first ∧ run.getLast? = some last ∧
    joined = { first with stop := last.stop }

/-- One of the regions has the name and holds the address. -/
def Cover (regions : List Region) (name : String) (address : UInt64) : Prop :=
  ∃ region ∈ regions, region.name = name ∧ region.Holds address

section Joining

theorem isJoined_joinFrom (current : Region) (rest : List Region) :
    IsJoined (joinFrom current rest) := by
  induction rest generalizing current with
  | nil => exact .singleton current
  | cons next rest ih =>
      by_cases follows : current.Continues next
      · rw [joinFrom_of_continues follows]
        exact ih _
      · -- Joining leaves the next region where it starts, so it still does not carry on this one.
        obtain ⟨first, more, shape, name, start⟩ := head_joinFrom next rest
        have apart : ¬ current.Continues first := fun onward =>
          follows ⟨onward.1.trans name, onward.2.trans start⟩
        have joined := ih next
        rw [joinFrom_of_not_continues follows]
        rw [shape] at joined ⊢
        exact .cons_cons apart joined

theorem isJoined_coalesce (regions : List Region) : IsJoined (coalesce regions) := by
  cases regions with
  | nil => exact .nil
  | cons region rest => exact isJoined_joinFrom region rest

theorem joinFrom_joinFrom (current next : Region) (rest : List Region) :
    joinFrom current (joinFrom next rest) = joinFrom current (next :: rest) := by
  induction rest generalizing current next with
  | nil => rfl
  | cons last rest ih =>
      by_cases goes : next.Continues last
      · rw [joinFrom_of_continues goes, ih]
        by_cases follows : current.Continues next
        · have longer : current.Continues { next with stop := last.stop } := follows
          have onward : Continues { current with stop := next.stop } last :=
            ⟨follows.1.trans goes.1, goes.2⟩
          rw [joinFrom_of_continues longer, joinFrom_of_continues follows,
            joinFrom_of_continues onward]
        · have apart : ¬ current.Continues { next with stop := last.stop } := follows
          rw [joinFrom_of_not_continues apart, joinFrom_of_not_continues follows,
            joinFrom_of_continues goes]
      · rw [joinFrom_of_not_continues goes]
        by_cases follows : current.Continues next
        · have stops : ¬ Continues { current with stop := next.stop } last := fun onward =>
            goes ⟨follows.1.symm.trans onward.1, onward.2⟩
          rw [joinFrom_of_continues follows, joinFrom_of_continues follows, ih]
        · rw [joinFrom_of_not_continues follows, joinFrom_of_not_continues follows, ih,
            joinFrom_of_not_continues goes]

theorem joinFrom_append_coalesce (current : Region) (front back : List Region) :
    joinFrom current (front ++ coalesce back) = joinFrom current (front ++ back) := by
  induction front generalizing current with
  | nil =>
      cases back with
      | nil => rfl
      | cons next rest => exact joinFrom_joinFrom current next rest
  | cons next rest ih =>
      rw [List.cons_append, List.cons_append]
      by_cases follows : current.Continues next
      · rw [joinFrom_of_continues follows, joinFrom_of_continues follows, ih]
      · rw [joinFrom_of_not_continues follows, joinFrom_of_not_continues follows, ih]

/-- What has been joined already stays as it is. -/
theorem coalesce_coalesce (regions : List Region) :
    coalesce (coalesce regions) = coalesce regions := by
  have joined := coalesce_append regions []
  rwa [List.append_nil, List.append_nil] at joined

/-- Two parts can be joined each for itself before they are joined to each other. -/
theorem coalesce_coalesce_append (front back : List Region) :
    coalesce (coalesce front ++ coalesce back) = coalesce (front ++ back) := by
  rw [coalesce_append]
  cases front with
  | nil => exact coalesce_coalesce back
  | cons region rest => exact joinFrom_append_coalesce region rest back

end Joining

namespace Joins

variable {run : List Region} {joined : Region}

/-- What a run is joined to goes on exactly where the last region of the run does. -/
theorem isRun (joins : Joins run joined) : IsRun run joined := by
  induction joins with
  | single region =>
      refine ⟨.singleton region, fun other listed => ?_, region, region, rfl, rfl, rfl⟩
      rw [List.mem_singleton.mp listed]
  | @continued run joined next before follows ih =>
      obtain ⟨chain, name, first, last, starts, stops, rfl⟩ := ih
      have meets : last.Continues next :=
        ⟨(name last (List.mem_of_getLast? stops)).trans follows.1, follows.2⟩
      refine ⟨?_, ?_, first, next, ?_, ?_, rfl⟩
      · apply chain.append (.singleton next)
        intro x ends y begins
        rw [stops] at ends
        obtain rfl : last = x := Option.some.inj ends
        obtain rfl : next = y := Option.some.inj begins
        exact meets
      · intro region listed
        rcases List.mem_append.mp listed with earlier | latest
        · exact name region earlier
        · rw [List.mem_singleton.mp latest]
          exact follows.1.symm
      · rw [List.head?_append, starts]
        rfl
      · rw [List.getLast?_append]
        rfl

end Joins

section Covering

variable {regions : List Region} (ordered : ∀ region ∈ regions, region.IsOrdered)
include ordered

/-- Under every name, joined regions hold the addresses that they were joined from. -/
theorem cover_coalesce (name : String) (address : UInt64) :
    Cover (coalesce regions) name address ↔ Cover regions name address := by
  obtain ⟨runs, rfl, joins⟩ := exists_runs regions
  generalize coalesce runs.flatten = joined at joins ⊢
  induction joins with
  | nil => exact Iff.rfl
  | @cons run region runs joined first rest ih =>
      rw [List.flatten_cons] at ordered ⊢
      have front : ∀ region ∈ run, region.IsOrdered := fun region inside =>
        ordered region (List.mem_append_left _ inside)
      have back : ∀ region ∈ runs.flatten, region.IsOrdered := fun region inside =>
        ordered region (List.mem_append_right _ inside)
      have named := first.isRun.name
      have head : (region.name = name ∧ region.Holds address) ↔ Cover run name address := by
        rw [first.holds_iff front]
        constructor
        · rintro ⟨same, part, inside, held⟩
          exact ⟨part, inside, (named part inside).trans same, held⟩
        · rintro ⟨part, inside, same, held⟩
          exact ⟨(named part inside).symm.trans same, part, inside, held⟩
      have tail := ih back
      unfold Cover at head tail ⊢
      simp only [List.mem_cons, List.mem_append, or_and_right, exists_or, exists_eq_left, head,
        tail]

end Covering

theorem cover_filter (regions : List Region) (looks : Region → Bool) (name : String)
    (address : UInt64) :
    Cover (regions.filter looks) name address ↔
      ∃ region ∈ regions, looks region ∧ region.name = name ∧ region.Holds address := by
  simp only [Cover, List.mem_filter, and_assoc]

/-- Regions are taken apart, in order and without loss, into the longest runs that carry each other
on under one name, and one region is made of each; to join them once more changes nothing, and they
can be joined in parts. If no region ends before it starts, the addresses held under a name are the
same as before, and what a policy keeps, joined or not, holds under a name the addresses of the
regions of that name that it looks at. -/
theorem coalesce_into_runs (regions more : List Region) :
    IsJoined (coalesce regions) ∧
    coalesce (coalesce regions) = coalesce regions ∧
    coalesce (regions ++ more) = coalesce (coalesce regions ++ coalesce more) ∧
    (∃ runs, runs.flatten = regions ∧ List.Forall₂ IsRun runs (coalesce regions)) ∧
    ((∀ region ∈ regions, region.IsOrdered) → ∀ name address,
      (Cover (coalesce regions) name address ↔ Cover regions name address) ∧
      ∀ policy, Cover (retain policy regions) name address ↔
        ∃ region ∈ regions, (policy.executableOnly = true → region.isExecutable = true) ∧
          region.name = name ∧ region.Holds address) := by
  refine ⟨isJoined_coalesce regions, coalesce_coalesce regions,
    (coalesce_coalesce_append regions more).symm, ?_, ?_⟩
  · obtain ⟨runs, parts, joins⟩ := exists_runs regions
    exact ⟨runs, parts, joins.imp fun _ _ => Joins.isRun⟩
  · intro ordered name address
    refine ⟨cover_coalesce ordered name address, ?_⟩
    intro policy
    have kept : ∀ region ∈ regions.filter policy.looksAt, region.IsOrdered := fun region among =>
      ordered region (List.mem_of_mem_filter among)
    simp only [← RegionPolicy.looksAt_iff]
    rw [retain_eq, ← cover_filter]
    split
    · exact cover_coalesce kept name address
    · exact Iff.rfl

/-- Two parts of one object that can be executed, with a region of no addresses between them and one
that cannot be executed in front of it, and another object. -/
def splitRegions : List Region :=
  [⟨0x1000, 0x2000, "r-xp", 0, "00:00", 0, "first"⟩,
    ⟨0x5000, 0x6000, "r--p", 0x1000, "00:00", 0, "first"⟩,
    ⟨0x2000, 0x2000, "r-xp", 0x2000, "00:00", 0, "first"⟩,
    ⟨0x2000, 0x3000, "r-xp", 0x2000, "00:00", 0, "first"⟩,
    ⟨0x3000, 0x4000, "r-xp", 0, "00:00", 0, "second"⟩]

/-- Only once the region that cannot be executed is left out do the parts of the first object lie
side by side; the addresses of that region are then no longer held. -/
theorem coalesce_splitRegions :
    (∀ region ∈ splitRegions, region.IsOrdered) ∧
      (coalesce splitRegions).length = 4 ∧
      retain {} splitRegions =
        [⟨0x1000, 0x3000, "r-xp", 0, "00:00", 0, "first"⟩,
          ⟨0x3000, 0x4000, "r-xp", 0, "00:00", 0, "second"⟩] ∧
      Cover (retain {} splitRegions) "first" 0x2800 ∧
      ¬ Cover (retain {} splitRegions) "first" 0x5800 ∧
      Cover (retain { executableOnly := false } splitRegions) "first" 0x5800 := by
  have ordered : ∀ region ∈ splitRegions, region.IsOrdered := by decide
  obtain ⟨-, -, -, -, covers⟩ := coalesce_into_runs splitRegions []
  have first := (covers ordered "first" 0x2800).2
  have left_out := (covers ordered "first" 0x5800).2
  refine ⟨ordered, by decide, by decide +kernel, ?_, ?_, ?_⟩
  · rw [first]
    exact ⟨⟨0x2000, 0x3000, "r-xp", 0x2000, "00:00", 0, "first"⟩, by decide, by decide, rfl,
      by decide, by decide⟩
  · rw [left_out]
    have none : ∀ region ∈ splitRegions, region.isExecutable = true →
        ¬ (region.start ≤ 0x5800 ∧ 0x5800 < region.stop) := by decide +kernel
    rintro ⟨region, among, looked, -, held⟩
    exact none region among (looked rfl) held
  · rw [left_out]
    exact ⟨⟨0x5000, 0x6000, "r--p", 0x1000, "00:00", 0, "first"⟩, by decide, nofun, rfl,
      by decide, by decide⟩

end Region
end ElfLens
