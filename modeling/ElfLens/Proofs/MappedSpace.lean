import ElfLens.AddressSpace

set_option autoImplicit false

namespace ElfLens

/-- The bytes lie at the address: a read from there on that is not empty gives as many of them. -/
def Memory.Holds (memory : Memory) (address : UInt64) (bytes : Bytes) : Prop :=
  ∀ length : UInt64, 0 < length.toNat → length.toNat ≤ bytes.size →
    memory.read address length = .ok (bytes.extract 0 length.toNat)

/-- A read so far behind the base gives that part of the bytes. -/
theorem Memory.read_ofBytes {base address length : UInt64} {bytes : Bytes} {distance : Nat}
    (place : address.toNat = base.toNat + distance) :
    (ofBytes base bytes).read address length =
      match bytes.slice? distance length.toNat with
      | some part => .ok part
      | none => .error (.memoryRead address.toNat length.toNat) := by
  have answer : Chunk.read? ⟨base, bytes⟩ address length =
      bytes.slice? distance length.toNat := by
    apply Option.ext
    intro part
    rw [Chunk.read?_eq_some_iff]
    constructor
    · rintro ⟨start, sum, sliced⟩
      obtain rfl : start = distance := by
        rw [place] at sum
        exact (Nat.add_left_cancel sum).symm
      exact sliced
    · intro sliced
      exact ⟨distance, place, sliced⟩
  simp only [ofBytes, ofChunks, List.findSome?_cons, List.findSome?_nil, answer]
  cases bytes.slice? distance length.toNat <;> rfl

/-- What is read of placed bytes is the part of them that lies there. -/
theorem Memory.exists_slice_of_read_ofBytes {base address length : UInt64} {bytes part : Bytes}
    (read : (ofBytes base bytes).read address length = .ok part) :
    ∃ start, address.toNat = base.toNat + start ∧
      bytes.slice? start length.toNat = some part := by
  simp only [ofBytes, ofChunks, List.findSome?_cons, List.findSome?_nil] at read
  cases answer : Chunk.read? ⟨base, bytes⟩ address length with
  | none =>
      simp only [answer] at read
      cases read
  | some found =>
      simp only [answer] at read
      cases read
      exact Chunk.read?_eq_some_iff.mp answer

/-- A file that is not empty gives its parts at their offsets. -/
theorem Memory.read_ofFile {content : Bytes} (filled : content ≠ #[]) (offset length : UInt64) :
    (ofFile content).read offset length =
      match content.slice? offset.toNat length.toNat with
      | some part => .ok part
      | none => .error (.memoryRead offset.toNat length.toNat) := by
  rw [ofFile, if_neg (by rwa [Array.isEmpty_iff])]
  exact read_ofBytes (by rw [UInt64.toNat_zero, Nat.zero_add])

theorem Memory.holds_ofBytes {base address : UInt64} {bytes part : Bytes} (start : Nat)
    (place : address.toNat = base.toNat + start)
    (sliced : bytes.slice? start part.size = some part) :
    (ofBytes base bytes).Holds address part := by
  intro length _ inside
  obtain ⟨bound, same⟩ := Bytes.slice?_eq_some_iff.mp sliced
  have shorter : bytes.slice? start length.toNat = some (part.extract 0 length.toNat) := by
    apply Bytes.slice?_eq_some_iff.mpr
    refine ⟨by omega, ?_⟩
    rw [same, Array.extract_extract, Nat.add_zero]
    congr 1
    omega
  rw [read_ofBytes place, shorter]

namespace AddressSpace

section Mapped

variable (memory : Memory) (base high : UInt64) (limits : Limits)

theorem domain_mapped : (mapped memory base high limits).domain = .loaded base := by
  unfold mapped domain
  by_cases ordered : base ≤ high <;> simp only [ordered, ↓reduceDIte]

theorem base_mapped : (mapped memory base high limits).base = base := by
  unfold mapped AddressSpace.base
  by_cases ordered : base ≤ high <;> simp only [ordered, ↓reduceDIte]

theorem isMapped_mapped : (mapped memory base high limits).isMapped = true := by
  unfold mapped isMapped
  by_cases ordered : base ≤ high <;> simp only [ordered, ↓reduceDIte]

/-- Only a file makes use of the segments. -/
theorem withSegments_mapped (segments : List Segment) :
    (mapped memory base high limits).withSegments segments = mapped memory base high limits := by
  unfold mapped withSegments
  by_cases ordered : base ≤ high <;> simp only [ordered, ↓reduceDIte]

/-- A mapped image is read at the address itself. -/
theorem readTable_mapped (address length : UInt64) :
    (mapped memory base high limits).readTable address length =
      if limits.tableBytes < length then .error (.truncatedTable address.toNat length.toNat)
      else memory.read address length := by
  unfold mapped readTable
  by_cases ordered : base ≤ high <;> simp only [ordered, ↓reduceDIte]

/-- What a range of a mapped image gives stands that far behind the base. -/
theorem read_of_readImage_mapped {offset length : UInt64} {part : Bytes}
    (read : (mapped memory base high limits).readImage offset length = .ok part) :
    ∃ address : UInt64, address.toNat = base.toNat + offset.toNat ∧
      memory.read address length = .ok part := by
  unfold readImage at read
  by_cases resident : (mapped memory base high limits).isResident offset length
  · rw [if_pos resident] at read
    have bound := base_add_of_isResident resident
    rw [base_mapped] at read bound
    have top := (mapped memory base high limits).high.toNat_lt
    exact ⟨base + offset, Word.toNat_add_of_fits (by rw [Word.size_eq]; omega), read⟩
  · rw [if_neg resident] at read
    cases read

end Mapped

theorem readTable_of_holds {memory : Memory} {address length : UInt64} {limits : Limits}
    {bytes : Bytes} (base high : UInt64) (lies : memory.Holds address bytes)
    (positive : 0 < length.toNat) (inside : length.toNat ≤ bytes.size)
    (allowed : bytes.size ≤ limits.tableBytes.toNat) :
    (mapped memory base high limits).readTable address length =
      .ok (bytes.extract 0 length.toNat) := by
  have short : ¬ limits.tableBytes < length := by
    rw [UInt64.lt_iff_toNat_lt]
    omega
  rw [readTable_mapped, if_neg short, lies length positive inside]

/-- The image consists of the bytes: a range of offsets inside it is that part of them. -/
structure Shows (space : AddressSpace) (bytes : Bytes) : Prop where
  length : space.length.toNat = bytes.size
  readImage : ∀ offset length : UInt64, offset.toNat + length.toNat ≤ bytes.size →
    space.readImage offset length = .ok (bytes.extract offset.toNat (offset.toNat + length.toNat))

theorem Shows.isResident {space : AddressSpace} {bytes : Bytes} (shows : space.Shows bytes)
    (offset length : UInt64) :
    space.isResident offset length = decide (offset.toNat + length.toNat ≤ bytes.size) := by
  rw [AddressSpace.isResident, shows.length]

/-- The image that bytes at an address make up. -/
def placed (base : UInt64) (bytes : Bytes) (limits : Limits) : AddressSpace :=
  mapped (.ofBytes base bytes) base (Chunk.high ⟨base, bytes⟩) limits

section Placed

variable {base : UInt64} {bytes : Bytes} {limits : Limits}

theorem toNat_length_placed (fits : base.toNat + bytes.size < UInt64.size) :
    (placed base bytes limits).length.toNat = bytes.size := by
  have top : (Chunk.high ⟨base, bytes⟩).toNat = base.toNat + bytes.size := by
    rw [Chunk.high, Word.toNat_capped]
    exact Nat.min_eq_left (Nat.le_pred_of_lt fits)
  have ordered : base ≤ Chunk.high ⟨base, bytes⟩ := by
    rw [UInt64.le_iff_toNat_le, top]
    exact Nat.le_add_right _ _
  have high_eq : (placed base bytes limits).high = Chunk.high ⟨base, bytes⟩ := by
    unfold placed mapped high
    simp only [ordered, ↓reduceDIte]
  rw [toNat_length, high_eq, placed, base_mapped, top]
  omega

theorem isResident_placed (fits : base.toNat + bytes.size < UInt64.size)
    (offset length : UInt64) :
    (placed base bytes limits).isResident offset length =
      decide (offset.toNat + length.toNat ≤ bytes.size) := by
  rw [isResident, toNat_length_placed fits]

/-- A range of offsets is that part of the bytes. -/
theorem readImage_placed (fits : base.toNat + bytes.size < UInt64.size)
    (offset length : UInt64) :
    (placed base bytes limits).readImage offset length =
      match bytes.slice? offset.toNat length.toNat with
      | some part => .ok part
      | none => .error (.truncatedTable offset.toNat length.toNat) := by
  rw [readImage, isResident_placed fits]
  by_cases inside : offset.toNat + length.toNat ≤ bytes.size
  · have place : (base + offset).toNat = base.toNat + offset.toNat :=
      Word.toNat_add_of_fits (by omega)
    rw [if_pos (by simpa using inside), placed, base_mapped]
    have sliced : bytes.slice? offset.toNat length.toNat =
        some (bytes.extract offset.toNat (offset.toNat + length.toNat)) :=
      Bytes.slice?_eq_some_iff.mpr ⟨inside, rfl⟩
    change (Memory.ofBytes base bytes).read (base + offset) length = _
    rw [Memory.read_ofBytes place, sliced]
  · rw [if_neg (by simpa using inside), Bytes.slice?_eq_none_iff.mpr (by omega)]

theorem shows_placed (fits : base.toNat + bytes.size < UInt64.size) :
    (placed base bytes limits).Shows bytes where
  length := toNat_length_placed fits
  readImage := by
    intro offset length inside
    rw [readImage_placed fits, Bytes.slice?_eq_some_iff.mpr ⟨inside, rfl⟩]

/-- A table so far behind the base is that part of the bytes. -/
theorem toOption_readTable_placed {address length : UInt64} {distance : Nat}
    (place : address.toNat = base.toNat + distance) :
    ((placed base bytes limits).readTable address length).toOption =
      if limits.tableBytes < length then none else bytes.slice? distance length.toNat := by
  rw [placed, readTable_mapped, Memory.read_ofBytes place]
  split
  · rfl
  · cases bytes.slice? distance length.toNat <;> rfl

end Placed

end AddressSpace

end ElfLens
