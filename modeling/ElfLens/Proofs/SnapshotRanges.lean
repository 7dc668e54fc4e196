import ElfLens.Proofs.HeaderAcceptance
import ElfLens.Proofs.RegionRuns
import ElfLens.Proofs.SnapshotImages

set_option autoImplicit false

namespace ElfLens

/-- If only one element of a list can satisfy a predicate, the first that does is the only one. -/
theorem filter_eq_toList_find? {α : Type} {p : α → Bool} {xs : List α}
    (apart : xs.Pairwise fun first second => ¬ (p first = true ∧ p second = true)) :
    xs.filter p = (xs.find? p).toList := by
  induction apart with
  | nil => rfl
  | @cons x xs others _ ih =>
      cases holds : p x with
      | false =>
          have fails : ¬ p x = true := by simp [holds]
          rw [List.filter_cons_of_neg fails, List.find?_cons_of_neg fails, ih]
      | true =>
          have none : xs.filter p = [] := by
            rw [List.filter_eq_nil_iff]
            intro y listed also
            exact others y listed ⟨holds, also⟩
          rw [List.filter_cons_of_pos holds, List.find?_cons_of_pos holds, none]
          rfl

namespace Image

variable {files : Files} {config : Config} {memory : Memory} {name : String}
  {path? : Option String}

theorem contains_iff (image : Image) (address : UInt64) :
    image.contains address = true ↔ image.space.base ≤ address ∧ address < image.space.high :=
  decide_eq_true_iff

/-- An image in memory takes up the range that it was loaded from. -/
theorem contains_of_ofMemory {region : Region} {image : Image} (ordered : region.IsOrdered)
    (loaded : ofMemory files config memory region.start region.stop name path? = .ok image)
    (address : UInt64) : image.contains address = true ↔ region.Holds address := by
  obtain ⟨head, header, segments, -, -, -, rfl⟩ := exists_of_load loaded
  have space : (assembled files config (.mapped memory region.start region.stop config.io) name
      path? header segments).space = .mapped memory region.start region.stop config.io :=
    AddressSpace.withSegments_mapped memory region.start region.stop config.io segments
  rw [contains_iff, space, AddressSpace.base_mapped, Region.Holds]
  unfold AddressSpace.mapped AddressSpace.high
  simp only [show region.start ≤ region.stop from ordered, ↓reduceDIte]

end Image

namespace Snapshot

/-- The image of a region takes up the region. -/
theorem contains_of_imageAt? {files : Files} {config : Config} {memory : Memory} {region : Region}
    {image : Image} (ordered : region.IsOrdered)
    (held : imageAt? files config memory region = some image) (address : UInt64) :
    image.contains address = true ↔ region.Holds address := by
  unfold imageAt? at held
  obtain ⟨front, -, signed⟩ := Option.bind_eq_some_iff.mp held
  split at signed
  · obtain ⟨_, loaded, rfl⟩ := exists_of_toOption_map (f := id) (by rwa [Option.map_id])
    exact Image.contains_of_ofMemory ordered loaded address
  · cases signed

/-- The images of regions without a common address have none either. -/
theorem pairwise_apart_ofRegions (files : Files) (config : Config) (memory : Memory)
    {regions : List Region} (ordered : ∀ region ∈ regions, region.IsOrdered)
    (apart : regions.Pairwise Region.Apart) :
    (ofRegions files config memory regions).images.Pairwise fun first second =>
      ∀ address, ¬ (first.contains address = true ∧ second.contains address = true) := by
  rw [ofRegions, List.pairwise_filterMap]
  refine apart.imp_of_mem ?_
  intro first second listed listed' apart image held image' held' address
  rw [contains_of_imageAt? (ordered first listed) held,
    contains_of_imageAt? (ordered second listed') held']
  exact apart address

/-- If the regions of a memory map do not end before they start and have no address in common, the
images of the map have none either. Each of their addresses lies in a region of the map, and in one
that can be executed if only those are looked at. An image is found for every address that one takes
up, and it is the only one there. -/
theorem ranges_ofMaps (files : Files) (config : Config) (memory : Memory) (text : String)
    (ordered : ∀ region ∈ Region.parseAll text, region.IsOrdered)
    (apart : (Region.parseAll text).Pairwise Region.Apart) :
    let snapshot := ofMaps files config memory text
    snapshot.images.Pairwise (fun first second =>
      ∀ address, ¬ (first.contains address = true ∧ second.contains address = true)) ∧
    (∀ image ∈ snapshot.images, ∀ address, image.contains address = true →
      ∃ region ∈ Region.parseAll text, region.Holds address ∧
        (config.maps.executableOnly = true → region.isExecutable = true)) ∧
    (∀ address image, snapshot.findContaining? address = some image ↔
      image ∈ snapshot.images ∧ image.contains address = true) ∧
    ∀ address, snapshot.images.filter (·.contains address) =
      (snapshot.findContaining? address).toList := by
  intro snapshot
  let kept := Region.retain config.maps (Region.parseAll text)
  have kept_ordered : ∀ region ∈ kept, region.IsOrdered := fun region among =>
    (Region.of_mem_retain ordered config.maps among).1
  have images_apart := pairwise_apart_ofRegions files config memory kept_ordered
    (Region.pairwise_apart_retain ordered config.maps apart)
  have only : ∀ address, snapshot.images.filter (·.contains address) =
      (snapshot.findContaining? address).toList := fun address =>
    filter_eq_toList_find? (images_apart.imp fun apart => apart address)
  refine ⟨images_apart, ?_, ?_, only⟩
  · intro image listed address taken
    obtain ⟨region, among, held⟩ := List.mem_filterMap.mp listed
    have holds := (contains_of_imageAt? (kept_ordered region among) held address).mp taken
    exact (Region.of_mem_retain ordered config.maps among).2 address holds
  · intro address image
    rw [← Option.mem_toList, ← only, List.mem_filter]

/-- A map of one object in two regions, of a region without any and of another object between. -/
def twoObjectMap : String :=
  "1000-1010 r-xp 0 00:00 0 first\n1010-1034 r-xp 10 00:00 0 first\n" ++
    "2000-3000 r-xp 0 00:00 0 hollow\n1034-1068 r-xp 0 00:00 0 second"

def twoObjectMemory : Memory :=
  let object := FileHeader.bareObject.encode
  .ofBytes 0x1000 (object ++ object).toArray

/-- Both objects are found, the first one at the addresses of both of its regions, and nothing at
those of the hollow region. -/
theorem ranges_twoObjectMap :
    let snapshot := ofMaps (fun _ => none) {} twoObjectMemory twoObjectMap
    (∀ region ∈ Region.parseAll twoObjectMap, region.IsOrdered) ∧
      (Region.parseAll twoObjectMap).Pairwise Region.Apart ∧
      snapshot.images.map (fun image => (image.space.base, image.space.high)) =
        [(0x1000, 0x1034), (0x1034, 0x1068)] ∧
      (snapshot.images.filter (·.contains 0x1020)).map (·.name) = ["first"] ∧
      snapshot.images.filter (·.contains 0x2000) = [] := by
  intro snapshot
  have ordered : ∀ region ∈ Region.parseAll twoObjectMap, region.IsOrdered := by decide +kernel
  have sides : (Region.parseAll twoObjectMap).Pairwise fun first second =>
      first.stop ≤ second.start ∨ second.stop ≤ first.start := by decide +kernel
  have apart : (Region.parseAll twoObjectMap).Pairwise Region.Apart := sides.imp Region.apart_of_le
  obtain ⟨-, -, -, only⟩ := ranges_ofMaps (fun _ => none) {} twoObjectMemory twoObjectMap
    ordered apart
  refine ⟨ordered, apart, by decide +kernel, ?_, ?_⟩
  · rw [only]
    decide +kernel
  · rw [only, Option.toList_eq_nil_iff, ← Option.isNone_iff_eq_none]
    decide +kernel

end Snapshot

end ElfLens
