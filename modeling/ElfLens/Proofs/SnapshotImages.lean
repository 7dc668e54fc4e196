import ElfLens.Proofs.PositionIndependence
import ElfLens.Snapshot

set_option autoImplicit false

namespace ElfLens

/-- The front of what can be read at an address of placed bytes can be read by itself. -/
theorem Memory.read_front_ofBytes {base address length less : UInt64} {bytes part : Bytes}
    (read : (ofBytes base bytes).read address length = .ok part) (positive : 0 < less.toNat)
    (shorter : less.toNat ≤ length.toNat) :
    (ofBytes base bytes).read address less = .ok (part.extract 0 less.toNat) := by
  have size := (ofBytes base bytes).size_of_read read
  obtain ⟨start, place, sliced⟩ := exists_slice_of_read_ofBytes read
  rw [← size] at sliced shorter
  exact holds_ofBytes start place sliced less positive shorter

/-- An image that would end before it starts is empty. -/
theorem AddressSpace.toNat_length_mapped (memory : Memory) (base high : UInt64)
    (limits : Limits) :
    (mapped memory base high limits).length.toNat = high.toNat - base.toNat := by
  rw [toNat_length, base_mapped]
  unfold mapped AddressSpace.high
  by_cases ordered : base ≤ high
  · simp only [ordered, ↓reduceDIte]
  · simp only [ordered, ↓reduceDIte]
    rw [UInt64.le_iff_toNat_le] at ordered
    omega

namespace Region

theorem toNat_byteSize (region : Region) :
    region.byteSize.toNat = region.stop.toNat - region.start.toNat := by
  unfold byteSize
  by_cases ordered : region.start ≤ region.stop
  · rw [if_pos ordered, UInt64.toNat_sub_of_le _ _ ordered]
  · rw [if_neg ordered, UInt64.toNat_zero]
    rw [UInt64.le_iff_toNat_le] at ordered
    omega

/-- As much of the region as a file header may take up. -/
def headSize (region : Region) : UInt64 := min Image.maxHeaderSize region.byteSize

theorem toNat_headSize (region : Region) :
    region.headSize.toNat = min Image.maxHeaderSize.toNat region.byteSize.toNat :=
  Word.toNat_min _ _

/-- No image can come of the region. -/
inductive IsHollow (memory : Memory) (region : Region) : Prop where
  /-- Nothing can be read where the region starts. -/
  | unreadable (failed : (memory.read region.start 4).toOption = none)
  /-- What is read there is not the signature. -/
  | foreign (unsigned : ∃ front ∈ (memory.read region.start 4).toOption, front ≠ Ident.signature)
  /-- The memory ends before the region does and before a file header could. -/
  | brokenOff (failed : (memory.read region.start region.headSize).toOption = none)
  /-- The region ends before the identification does. -/
  | cutShort (short : region.byteSize.toNat < Ident.byteSize)
  /-- The region ends before the file header does that the identification calls for. -/
  | truncated (short : ∃ front ∈ (memory.read region.start Ident.byteSize.toUInt64).toOption,
      ∃ ident ∈ (Ident.decode front).toOption, region.byteSize.toNat < ident.layout.headerSize)
  /-- The region has no addresses. -/
  | empty (nothing : region.stop = region.start)
  /-- The region ends before it starts. -/
  | inverted (backward : region.stop < region.start)

end Region

namespace Image

variable {files : Files} {config : Config} {base : UInt64} {bytes : Bytes} {name : String}
  {path? : Option String}

/-- An image in memory comes of a file header that can be read where the image starts. -/
theorem exists_head_of_ofMemory {memory : Memory} {region : Region} {image : Image}
    (loaded : ofMemory files config memory region.start region.stop name path? = .ok image) :
    ∃ head, memory.read region.start region.headSize = .ok head ∧
      FileHeader.decode head = .ok image.header := by
  obtain ⟨head, header, segments, front, decoded, -, rfl⟩ := exists_of_load loaded
  have length : (AddressSpace.mapped memory region.start region.stop config.io).length =
      region.byteSize := by
    apply UInt64.toNat_inj.mp
    rw [AddressSpace.toNat_length_mapped, region.toNat_byteSize]
  rw [length] at front
  obtain ⟨address, place, read⟩ := AddressSpace.read_of_readImage_mapped _ _ _ _ front
  obtain rfl : address = region.start := UInt64.toNat_inj.mp place
  exact ⟨head, read, decoded⟩

/-- What the glance at the signature turns away is not an image. -/
theorem isSigned_of_ofMemory {region : Region} {image : Image}
    (loaded : ofMemory files config (.ofBytes base bytes) region.start region.stop name path? =
      .ok image) :
    ∃ front, (Memory.ofBytes base bytes).read region.start 4 = .ok front ∧
      Ident.isSigned front := by
  obtain ⟨head, read, decoded⟩ := exists_head_of_ofMemory loaded
  obtain ⟨signed, long⟩ := Ident.isSigned_of_decode (FileHeader.decode_eq_ok_iff.mp decoded).1
  have size := (Memory.ofBytes base bytes).size_of_read read
  have four : (4 : UInt64).toNat = 4 := rfl
  have shorter : (4 : UInt64).toNat ≤ region.headSize.toNat := by
    rw [← size, four]
    exact Nat.le_trans (by decide) long
  refine ⟨_, Memory.read_front_ofBytes read (by decide) shorter, ?_⟩
  rw [Ident.isSigned_iff, four, Array.extract_extract]
  exact Ident.isSigned_iff.mp signed

/-- A region is loaded as if nobody had glanced at it before. -/
theorem imageAt?_ofBytes (files : Files) (config : Config) (base : UInt64) (bytes : Bytes)
    (region : Region) :
    Snapshot.imageAt? files config (.ofBytes base bytes) region =
      (ofMemory files config (.ofBytes base bytes) region.start region.stop region.name
        region.path?).toOption := by
  unfold Snapshot.imageAt?
  cases loaded : ofMemory files config (.ofBytes base bytes) region.start region.stop region.name
      region.path? with
  | ok image =>
      obtain ⟨front, read, signed⟩ := isSigned_of_ofMemory loaded
      simp only [read, Except.toOption, Option.bind_eq_bind, Option.bind_some, if_pos signed]
  | error fault =>
      cases (Memory.ofBytes base bytes).read region.start 4 with
      | error other => rfl
      | ok front =>
          simp only [Except.toOption, Option.bind_eq_bind, Option.bind_some, ite_self]

/-- No image comes of a region that is said to hold none. -/
theorem ofMemory_of_isHollow (files : Files) (config : Config) (name : String)
    (path? : Option String) {region : Region} (hollow : region.IsHollow (.ofBytes base bytes)) :
    ∃ fault, ofMemory files config (.ofBytes base bytes) region.start region.stop name path? =
      .error fault := by
  cases loaded : ofMemory files config (.ofBytes base bytes) region.start region.stop name
      path? with
  | error fault => exact ⟨fault, rfl⟩
  | ok image =>
      exfalso
      obtain ⟨front, signature, signed⟩ := isSigned_of_ofMemory loaded
      obtain ⟨head, read, decoded⟩ := exists_head_of_ofMemory loaded
      obtain ⟨named, whole, -, -⟩ := FileHeader.decode_eq_ok_iff.mp decoded
      obtain ⟨-, long⟩ := Ident.isSigned_of_decode named
      have size := (Memory.ofBytes base bytes).size_of_read read
      have some_bytes : 0 < Ident.byteSize := by decide
      have within : region.headSize.toNat ≤ region.byteSize.toNat := by
        rw [region.toNat_headSize]
        exact Nat.min_le_right _ _
      rw [size] at long whole
      cases hollow with
      | unreadable failed =>
          rw [signature] at failed
          cases failed
      | foreign unsigned =>
          obtain ⟨other, same, unsigned⟩ := unsigned
          rw [signature] at same
          cases same
          have four : (4 : UInt64).toNat = 4 := rfl
          have count := (Memory.ofBytes base bytes).size_of_read signature
          apply unsigned
          rw [← Ident.isSigned_iff.mp signed, Array.extract_eq_self_of_le]
          exact Nat.le_of_eq (count.trans four)
      | brokenOff failed =>
          rw [read] at failed
          cases failed
      | cutShort short => omega
      | truncated short =>
          obtain ⟨other, same, ident, also, short⟩ := short
          have shorter : Ident.byteSize.toUInt64.toNat ≤ region.headSize.toNat := long
          rw [Memory.read_front_ofBytes read (by decide) shorter] at same
          cases same
          have front : Ident.decode (head.extract 0 Ident.byteSize.toUInt64.toNat) =
            Ident.decode head := Ident.decode_extract (Nat.le_refl _)
          rw [front, named] at also
          cases also
          have called : region.byteSize.toNat < image.header.layout.headerSize := short
          omega
      | empty nothing =>
          have none : region.byteSize.toNat = 0 := by
            rw [region.toNat_byteSize, nothing, Nat.sub_self]
          omega
      | inverted backward =>
          have none : region.byteSize.toNat = 0 := by
            rw [UInt64.lt_iff_toNat_lt] at backward
            rw [region.toNat_byteSize]
            omega
          omega

end Image

/-- The second list is the first one with idle elements put in anywhere. -/
inductive Padded {α : Type} (idle : α → Prop) : List α → List α → Prop where
  | nil : Padded idle [] []
  | keep {x : α} {xs ys : List α} (rest : Padded idle xs ys) : Padded idle (x :: xs) (x :: ys)
  | insert {y : α} {xs ys : List α} (extra : idle y) (rest : Padded idle xs ys) :
      Padded idle xs (y :: ys)

theorem Padded.filterMap_eq {α β : Type} {idle : α → Prop} {f : α → Option β} {xs ys : List α}
    (silent : ∀ x, idle x → f x = none) (padded : Padded idle xs ys) :
    ys.filterMap f = xs.filterMap f := by
  induction padded with
  | nil => rfl
  | keep rest ih => rw [List.filterMap_cons, List.filterMap_cons, ih]
  | insert extra rest ih => rw [List.filterMap_cons_none (silent _ extra), ih]

namespace Snapshot

/-- The images of a snapshot are what its regions are loaded into, each by itself and in their
order. What some regions hold has no influence on what others do, and regions without an image can
stand anywhere between the others. -/
theorem images_ofRegions (files : Files) (config : Config) (base : UInt64) (bytes : Bytes) :
    let memory := Memory.ofBytes base bytes
    let load := fun region : Region => (Image.ofMemory files config memory region.start region.stop
      region.name region.path?).toOption
    let images := fun regions => (ofRegions files config memory regions).images
    (∀ regions, images regions = regions.filterMap load) ∧
      (∀ xs ys, images (xs ++ ys) = images xs ++ images ys) ∧
      (∀ region : Region, region.IsHollow memory → load region = none) ∧
      ∀ xs ys, Padded (Region.IsHollow memory) xs ys → images ys = images xs := by
  intro memory load images
  have one_by_one : ∀ regions, images regions = regions.filterMap load := by
    intro regions
    exact congrArg (List.filterMap · regions)
      (funext (Image.imageAt?_ofBytes files config base bytes))
  have silent : ∀ region : Region, region.IsHollow memory → load region = none := by
    intro region hollow
    obtain ⟨fault, failed⟩ := Image.ofMemory_of_isHollow files config region.name region.path?
      hollow
    simp only [load, memory, failed]
    rfl
  refine ⟨one_by_one, ?_, silent, ?_⟩
  · intro xs ys
    rw [one_by_one, one_by_one, one_by_one, List.filterMap_append]
  · intro xs ys padded
    rw [one_by_one, one_by_one, padded.filterMap_eq silent]

/-- A region of the memory that holds one object at its start. -/
def regionOf (start stop : UInt64) : Region :=
  { start, stop, perms := "r-xp", offset := 0, device := "00:00", inode := 0, name := "object" }

/-- Hollow regions of every kind around and between two that hold the object. -/
theorem images_between_hollow :
    let memory := Memory.ofBytes 0x1000 Image.oneSymbolObject
    let images := fun regions => (ofRegions (fun _ => none) {} memory regions).images
    images [regionOf 0x9000 0xa000, regionOf 0x1000 0x10b4, regionOf 0x1034 0x10b4,
        regionOf 0x1000 0x1000, regionOf 0x1000 0xfff, regionOf 0x1000 0x10a0,
        regionOf 0x1000 0x1008, regionOf 0x1000 0x1020] =
      images [regionOf 0x1000 0x10b4, regionOf 0x1000 0x10a0] ∧
    (images [regionOf 0x1000 0x10b4, regionOf 0x1000 0x10a0]).map (·.segments.length) = [1, 1] := by
  intro memory images
  obtain ⟨-, -, -, padded⟩ := images_ofRegions (fun _ => none) {} 0x1000 Image.oneSymbolObject
  refine ⟨padded _ _ ?_, by decide +kernel⟩
  apply Padded.insert (.unreadable (by decide +kernel))
  apply Padded.keep
  apply Padded.insert (.foreign (by decide +kernel))
  apply Padded.insert (.empty rfl)
  apply Padded.insert (.inverted (by decide))
  apply Padded.keep
  apply Padded.insert (.cutShort (by decide))
  exact .insert (.truncated (by decide +kernel)) .nil

end Snapshot

end ElfLens
