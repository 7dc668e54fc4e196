import ElfLens.Maps.Region
import Mathlib.Data.List.Forall2

set_option autoImplicit false

namespace ElfLens

def RegionPolicy.looksAt (policy : RegionPolicy) (region : Region) : Bool :=
  !policy.executableOnly || region.isExecutable

theorem RegionPolicy.looksAt_iff {policy : RegionPolicy} {region : Region} :
    policy.looksAt region = true ↔ (policy.executableOnly = true → region.isExecutable = true) := by
  unfold looksAt
  cases policy.executableOnly <;> simp

namespace Region

def Holds (region : Region) (address : UInt64) : Prop :=
  region.start ≤ address ∧ address < region.stop

/-- No address lies in both regions. -/
def Apart (first second : Region) : Prop :=
  ∀ address, ¬ (first.Holds address ∧ second.Holds address)

/-- The region does not end before it starts. -/
def IsOrdered (region : Region) : Prop := region.start ≤ region.stop

instance (region : Region) : Decidable region.IsOrdered :=
  inferInstanceAs (Decidable (region.start ≤ region.stop))

theorem apart_of_le {first second : Region}
    (order : first.stop ≤ second.start ∨ second.stop ≤ first.start) : first.Apart second := by
  rintro address ⟨here, there⟩
  simp only [Holds, UInt64.le_iff_toNat_le, UInt64.lt_iff_toNat_lt] at here there order
  omega

/-- The region is what a run of regions is joined to, each of which carries on those before it. -/
inductive Joins : List Region → Region → Prop where
  | single (region : Region) : Joins [region] region
  | continued {run : List Region} {joined next : Region} (before : Joins run joined)
      (follows : joined.Continues next) : Joins (run ++ [next]) { joined with stop := next.stop }

theorem exists_runs_joinFrom {run : List Region} {current : Region} (before : Joins run current)
    (rest : List Region) :
    ∃ runs, runs.flatten = run ++ rest ∧ List.Forall₂ Joins runs (joinFrom current rest) := by
  induction rest generalizing run current with
  | nil => exact ⟨[run], by simp, .cons before .nil⟩
  | cons next rest ih =>
      by_cases follows : current.Continues next
      · obtain ⟨runs, parts, joined⟩ := ih (before.continued follows)
        refine ⟨runs, ?_, ?_⟩
        · rw [parts, List.append_assoc, List.singleton_append]
        · rwa [joinFrom_of_continues follows]
      · obtain ⟨runs, parts, joined⟩ := ih (.single next)
        refine ⟨run :: runs, ?_, ?_⟩
        · rw [List.flatten_cons, parts, List.singleton_append]
        · rw [joinFrom_of_not_continues follows]
          exact .cons before joined

/-- The list is taken apart into runs, in order and without loss, and one region is made of each. -/
theorem exists_runs (regions : List Region) :
    ∃ runs, runs.flatten = regions ∧ List.Forall₂ Joins runs (coalesce regions) := by
  cases regions with
  | nil => exact ⟨[], rfl, .nil⟩
  | cons region rest => exact exists_runs_joinFrom (.single region) rest

namespace Joins

variable {run : List Region} {joined : Region}

theorem isOrdered (joins : Joins run joined) (ordered : ∀ region ∈ run, region.IsOrdered) :
    joined.IsOrdered := by
  induction joins with
  | single region => exact ordered region (List.mem_singleton_self region)
  | @continued run joined next before follows ih =>
      have front : joined.IsOrdered := ih fun region listed =>
        ordered region (List.mem_append_left _ listed)
      have back : next.IsOrdered := ordered next (by simp)
      have bound : joined.start ≤ next.start := follows.2 ▸ front
      exact UInt64.le_trans bound back

/-- The joined region holds the addresses that the regions of the run hold, and no others. -/
theorem holds_iff (joins : Joins run joined) (ordered : ∀ region ∈ run, region.IsOrdered)
    (address : UInt64) : joined.Holds address ↔ ∃ region ∈ run, region.Holds address := by
  induction joins with
  | single region => simp
  | @continued run joined next before follows ih =>
      have earlier : ∀ region ∈ run, region.IsOrdered := fun region listed =>
        ordered region (List.mem_append_left _ listed)
      have front : joined.start ≤ joined.stop := before.isOrdered earlier
      have back : next.start ≤ next.stop := ordered next (by simp)
      have meets : joined.stop = next.start := follows.2
      -- The two ranges meet, so together they are the range from the first start to the last stop.
      have parts : (joined.start ≤ address ∧ address < next.stop) ↔
          joined.Holds address ∨ next.Holds address := by
        simp only [Holds, UInt64.le_iff_toNat_le, UInt64.lt_iff_toNat_lt, ← meets] at *
        omega
      rw [Holds, parts, ih earlier]
      simp only [List.mem_append, List.mem_singleton, or_and_right, exists_or, exists_eq_left]

end Joins

section Runs

variable {runs : List (List Region)} {regions : List Region}

theorem exists_joins_of_mem (joins : List.Forall₂ Joins runs regions) {region : Region}
    (listed : region ∈ regions) : ∃ run ∈ runs, Joins run region := by
  induction joins with
  | nil => cases listed
  | cons first _ ih =>
      rcases List.mem_cons.mp listed with rfl | later
      · exact ⟨_, List.mem_cons_self .., first⟩
      · obtain ⟨run, among, made⟩ := ih later
        exact ⟨run, List.mem_cons_of_mem _ among, made⟩

/-- Where a joined region holds an address, one of the regions held it before. -/
theorem exists_holds_of_mem (joins : List.Forall₂ Joins runs regions)
    (ordered : ∀ region ∈ runs.flatten, region.IsOrdered) {joined : Region}
    (listed : joined ∈ regions) {address : UInt64} (holds : joined.Holds address) :
    ∃ region ∈ runs.flatten, region.Holds address := by
  obtain ⟨run, among, made⟩ := exists_joins_of_mem joins listed
  have forward : ∀ region ∈ run, region ∈ runs.flatten := fun region inside =>
    List.mem_flatten.mpr ⟨run, among, inside⟩
  obtain ⟨region, inside, held⟩ :=
    (made.holds_iff (fun region inside => ordered region (forward region inside)) address).mp holds
  exact ⟨region, forward region inside, held⟩

theorem isOrdered_of_joins (joins : List.Forall₂ Joins runs regions)
    (ordered : ∀ region ∈ runs.flatten, region.IsOrdered) :
    ∀ region ∈ regions, region.IsOrdered := by
  intro region listed
  obtain ⟨run, among, made⟩ := exists_joins_of_mem joins listed
  exact made.isOrdered fun part inside => ordered part (List.mem_flatten.mpr ⟨run, among, inside⟩)

/-- Regions that are joined from regions without a common address have none either. -/
theorem pairwise_apart_of_joins (joins : List.Forall₂ Joins runs regions)
    (ordered : ∀ region ∈ runs.flatten, region.IsOrdered) (apart : runs.flatten.Pairwise Apart) :
    regions.Pairwise Apart := by
  induction joins with
  | nil => exact .nil
  | @cons run joined runs regions first rest ih =>
      rw [List.flatten_cons] at ordered apart
      obtain ⟨-, later, between⟩ := List.pairwise_append.mp apart
      have front : ∀ region ∈ run, region.IsOrdered := fun region inside =>
        ordered region (List.mem_append_left _ inside)
      have back : ∀ region ∈ runs.flatten, region.IsOrdered := fun region inside =>
        ordered region (List.mem_append_right _ inside)
      refine .cons ?_ (ih back later)
      rintro other listed address ⟨here, there⟩
      obtain ⟨part, inside, held⟩ := (first.holds_iff front address).mp here
      obtain ⟨part', inside', held'⟩ := exists_holds_of_mem rest back listed there
      exact between part inside part' inside' address ⟨held, held'⟩

end Runs

theorem retain_eq (policy : RegionPolicy) (regions : List Region) :
    retain policy regions =
      if policy.coalesce then coalesce (regions.filter policy.looksAt)
      else regions.filter policy.looksAt := by
  have kept : regions.filter policy.looksAt =
      if policy.executableOnly then regions.filter (·.isExecutable) else regions := by
    unfold RegionPolicy.looksAt
    cases policy.executableOnly with
    | true => rfl
    | false => exact List.filter_true regions
  rw [kept]
  rfl

section Retained

variable {regions : List Region} (ordered : ∀ region ∈ regions, region.IsOrdered)
include ordered

theorem isOrdered_coalesce : ∀ region ∈ coalesce regions, region.IsOrdered := by
  obtain ⟨runs, rfl, joins⟩ := exists_runs regions
  exact isOrdered_of_joins joins ordered

theorem pairwise_apart_coalesce (apart : regions.Pairwise Apart) :
    (coalesce regions).Pairwise Apart := by
  obtain ⟨runs, rfl, joins⟩ := exists_runs regions
  exact pairwise_apart_of_joins joins ordered apart

theorem exists_holds_of_mem_coalesce {joined : Region} (listed : joined ∈ coalesce regions)
    {address : UInt64} (holds : joined.Holds address) :
    ∃ region ∈ regions, region.Holds address := by
  obtain ⟨runs, rfl, joins⟩ := exists_runs regions
  exact exists_holds_of_mem joins ordered listed holds

/-- What a policy keeps of the regions is ordered, and an address that it holds lies in one of the
regions that the policy looks at. -/
theorem of_mem_retain (policy : RegionPolicy) {joined : Region}
    (listed : joined ∈ retain policy regions) :
    joined.IsOrdered ∧ ∀ address, joined.Holds address →
      ∃ region ∈ regions, region.Holds address ∧
        (policy.executableOnly = true → region.isExecutable = true) := by
  have looked : ∀ region ∈ regions.filter policy.looksAt, region ∈ regions ∧
      (policy.executableOnly = true → region.isExecutable = true) := by
    intro region among
    obtain ⟨present, looks⟩ := List.mem_filter.mp among
    exact ⟨present, RegionPolicy.looksAt_iff.mp looks⟩
  have kept_ordered : ∀ region ∈ regions.filter policy.looksAt, region.IsOrdered :=
    fun region among => ordered region (looked region among).1
  rw [retain_eq] at listed
  split at listed
  · refine ⟨isOrdered_coalesce kept_ordered joined listed, ?_⟩
    intro address holds
    obtain ⟨region, among, held⟩ := exists_holds_of_mem_coalesce kept_ordered listed holds
    exact ⟨region, (looked region among).1, held, (looked region among).2⟩
  · refine ⟨kept_ordered joined listed, ?_⟩
    intro address holds
    exact ⟨joined, (looked joined listed).1, holds, (looked joined listed).2⟩

/-- What a policy keeps of regions without a common address has none either. -/
theorem pairwise_apart_retain (policy : RegionPolicy) (apart : regions.Pairwise Apart) :
    (retain policy regions).Pairwise Apart := by
  have kept_apart : (regions.filter policy.looksAt).Pairwise Apart := apart.filter _
  rw [retain_eq]
  split
  · exact pairwise_apart_coalesce
      (fun region among => ordered region (List.mem_of_mem_filter among)) kept_apart
  · exact kept_apart

end Retained

end Region
end ElfLens
