import ElfLens.Image.Basic
import ElfLens.Proofs.MappedSpace
import ElfLens.Proofs.TableReading

set_option autoImplicit false

namespace ElfLens

/-- Only what starts with the signature, and is as long as it has to be, is an identification. -/
theorem Ident.isSigned_of_decode {data : Bytes} {ident : Ident} (named : decode data = .ok ident) :
    isSigned data ∧ byteSize ≤ data.size := by
  unfold decode at named
  by_cases foreign : 4 ≤ data.size ∧ ¬ isSigned data
  · rw [if_pos foreign] at named
    cases named
  · rw [if_neg foreign] at named
    by_cases short : data.size < byteSize
    · simp only [if_pos short] at named
      cases named
    · have long : byteSize ≤ data.size := Nat.le_of_not_lt short
      have four : 4 ≤ data.size := Nat.le_trans (by decide) long
      exact ⟨Classical.not_not.mp fun unsigned => foreign ⟨four, unsigned⟩, long⟩

/-- The signature is all there is to the first four bytes. -/
theorem Ident.isSigned_iff {data : Bytes} : isSigned data ↔ data.extract 0 4 = signature := by
  unfold isSigned
  rw [beq_iff_eq, Bytes.slice?_eq_some_iff]
  constructor
  · rintro ⟨-, same⟩
    exact same.symm
  · intro same
    have size := congrArg Array.size same
    rw [Array.size_extract, show signature.size = 4 from rfl] at size
    exact ⟨by omega, same.symm⟩

/-- Only the first bytes matter to the identification, whether it is accepted or not. -/
theorem Ident.decode_extract {data : Bytes} {size : Nat} (whole : byteSize ≤ size) :
    decode (data.extract 0 size) = decode data := by
  have four : 4 ≤ byteSize := by decide
  by_cases long : byteSize ≤ data.size
  · have enough : byteSize ≤ (data.extract 0 size).size := by
      rw [Array.size_extract]
      omega
    have front : ∀ count, count ≤ byteSize →
        (data.extract 0 size).extract 0 count = data.extract 0 count := by
      intro count few
      rw [Array.extract_extract, Nat.add_zero, Nat.zero_add, Nat.min_eq_left (by omega)]
    have signed : isSigned (data.extract 0 size) = isSigned data := by
      have here : 0 + 4 ≤ data.size := by omega
      have there : 0 + 4 ≤ (data.extract 0 size).size := by omega
      unfold isSigned Bytes.slice?
      rw [if_pos here, if_pos there, front _ (by decide)]
    unfold decode
    simp only [signed, front byteSize (Nat.le_refl _), Nat.le_trans four long,
      Nat.le_trans four enough, Nat.not_lt.mpr long, Nat.not_lt.mpr enough, ↓reduceIte]
  · rw [Array.extract_eq_self_of_le (by omega)]

namespace FileHeader

theorem ident_of_fields (ident : Ident) : (fields ident).Ensures (·.ident = ident) := by
  unfold fields
  exact .bind fun _ => .bind fun _ => .bind fun _ => .bind fun _ => .bind fun _ => .bind fun _ =>
    .bind fun _ => .bind fun _ => .bind fun _ => .bind fun _ => .bind fun _ => .bind fun _ =>
      .bind fun _ => .pure rfl

/-- A header is accepted in three steps: the identification, the fields and their demands. -/
theorem decode_eq_ok_iff {data : Bytes} {header : FileHeader} :
    decode data = .ok header ↔
      Ident.decode data = .ok header.ident ∧ header.layout.headerSize ≤ data.size ∧
      (fields header.ident).decodeAt (data.extract 0 header.layout.headerSize) Ident.byteSize =
        .ok header ∧
      header.defect? = none := by
  unfold decode
  cases named : Ident.decode data with
  | error fault => simp [bind, Except.bind]
  | ok ident =>
      simp only [bind, Except.bind]
      by_cases short : data.size < ident.layout.headerSize
      · rw [if_pos short]
        constructor
        · intro accepted
          cases accepted
        · rintro ⟨same, long, -⟩
          cases same
          exact absurd short (Nat.not_lt_of_le long)
      · rw [if_neg short]
        cases read : (fields ident).decodeAt (data.extract 0 ident.layout.headerSize)
            Ident.byteSize with
        | error fault =>
            constructor
            · intro accepted
              cases accepted
            · rintro ⟨same, -, told, -⟩
              cases same
              rw [layout, read] at told
              cases told
        | ok other =>
            have ensured := FieldReader.property_of_decodeAt (ident_of_fields ident) read
            have identified : other.ident = ident := ensured
            constructor
            · intro accepted
              cases sound : other.defect? with
              | some defect =>
                  simp only [sound] at accepted
                  cases accepted
              | none =>
                  simp only [pure, Except.pure, sound] at accepted
                  cases accepted
                  rw [layout, identified]
                  exact ⟨rfl, Nat.le_of_not_lt short, read, sound⟩
            · rintro ⟨same, -, told, sound⟩
              cases same
              rw [layout, read] at told
              cases told
              simp only [pure, Except.pure, sound]

/-- Bytes behind the header do not matter to it, whether it is accepted or not. -/
theorem decode_extract_eq {data : Bytes} {size : Nat} (named : Ident.byteSize ≤ size)
    (whole : ∀ ident, Ident.decode data = .ok ident → ident.layout.headerSize ≤ size) :
    decode (data.extract 0 size) = decode data := by
  unfold decode
  rw [Ident.decode_extract named]
  cases told : Ident.decode data with
  | error fault => rfl
  | ok ident =>
      have enough := whole ident told
      have front : (data.extract 0 size).extract 0 ident.layout.headerSize =
          data.extract 0 ident.layout.headerSize := by
        rw [Array.extract_extract, Nat.add_zero, Nat.zero_add, Nat.min_eq_left enough]
      by_cases cut : size ≤ data.size
      · have length : (data.extract 0 size).size = size := by
          rw [Array.size_extract]
          omega
        simp only [bind, Except.bind, front, length, Nat.not_lt.mpr enough,
          Nat.not_lt.mpr (Nat.le_trans enough cut), ↓reduceIte]
      · rw [Array.extract_eq_self_of_le (by omega)]

theorem decode_extract {data : Bytes} {header : FileHeader} {size : Nat}
    (decoded : decode data = .ok header) (whole : header.layout.headerSize ≤ size) :
    decode (data.extract 0 size) = .ok header := by
  have named := (decode_eq_ok_iff.mp decoded).1
  have bound : Ident.byteSize ≤ header.layout.headerSize := by
    unfold Layout.headerSize
    split <;> decide
  rw [decode_extract_eq (Nat.le_trans bound whole) ?_, decoded]
  intro ident told
  obtain rfl : header.ident = ident := Except.ok.inj (named.symm.trans told)
  exact whole

/-- An accepted header calls for program headers that are long enough. -/
theorem segmentSize_le_of_defect? {header : FileHeader} (sound : header.defect? = none)
    (present : header.segmentCount ≠ 0) :
    header.layout.segmentSize ≤ header.segmentStride.toNat := by
  apply Nat.le_of_not_lt
  intro narrow
  have counted : 0 < header.segmentCount := UInt16.pos_iff_ne_zero.mpr present
  unfold defect? at sound
  dsimp only at sound
  split at sound
  · cases sound
  · rw [if_pos ⟨counted, narrow⟩] at sound
    cases sound

/-- An accepted header calls for section headers that are long enough. -/
theorem sectionSize_le_of_defect? {header : FileHeader} (sound : header.defect? = none)
    (present : header.sectionCount ≠ 0) :
    header.layout.sectionSize ≤ header.sectionStride.toNat := by
  apply Nat.le_of_not_lt
  intro narrow
  have counted : 0 < header.sectionCount := UInt16.pos_iff_ne_zero.mpr present
  unfold defect? at sound
  dsimp only at sound
  split at sound
  · cases sound
  · split at sound
    · cases sound
    · rw [if_pos ⟨counted, narrow⟩] at sound
      cases sound

/-- A stride and a count are too small for the size of their table to overflow. -/
theorem toNat_mul_toUInt64 (stride count : UInt16) :
    (stride.toUInt64 * count.toUInt64).toNat = stride.toNat * count.toNat := by
  have product : stride.toNat * count.toNat < UInt16.size * UInt16.size :=
    Nat.mul_lt_mul'' stride.toNat_lt count.toNat_lt
  rw [UInt64.toNat_mul, UInt16.toNat_toUInt64, UInt16.toNat_toUInt64]
  exact Nat.mod_eq_of_lt (Nat.lt_trans product (by decide))

theorem toNat_segmentTableSize (header : FileHeader) :
    header.segmentTableSize.toNat = header.segmentStride.toNat * header.segmentCount.toNat :=
  toNat_mul_toUInt64 _ _

theorem toNat_sectionTableSize (header : FileHeader) :
    header.sectionTableSize.toNat = header.sectionStride.toNat * header.sectionCount.toNat :=
  toNat_mul_toUInt64 _ _

end FileHeader

theorem Linkage.exists_ofEntries_of_read {space : AddressSpace} {layout : Layout}
    {address byteSize : UInt64} {linkage : Linkage}
    (opened : read space layout address byteSize = .ok linkage) :
    ∃ entries, linkage = ofEntries space layout address byteSize entries := by
  unfold read at opened
  cases array : space.readTable address byteSize with
  | error fault =>
      rw [array] at opened
      cases opened
  | ok bytes =>
      rw [array] at opened
      exact ⟨_, (Except.ok.inj opened).symm⟩

namespace Image

variable {base : UInt64} {bytes : Bytes}

/-- The program headers of an accepted header are read, or the image has none inside. -/
theorem exists_readSegments {space : AddressSpace} {header : FileHeader}
    (shows : space.Shows bytes) (sound : header.defect? = none) :
    ∃ segments, readSegments space header = .ok segments ∧
      segments.length =
        if header.segmentOffset ≠ 0 ∧ space.isResident header.segmentOffset header.segmentTableSize
        then header.segmentCount.toNat else 0 := by
  unfold readSegments
  by_cases absent : header.segmentOffset = 0 ∨ header.segmentCount = 0
  · refine ⟨[], if_pos absent, ?_⟩
    rcases absent with nowhere | none
    · simp [nowhere]
    · simp [none]
  · rw [if_neg absent]
    obtain ⟨somewhere, some⟩ := not_or.mp absent
    by_cases resident : space.isResident header.segmentOffset header.segmentTableSize
    · -- What lies inside is read whole, so no record that the header counts is cut off.
      have inside := resident
      rw [shows.isResident, decide_eq_true_eq] at inside
      have read := shows.readImage _ _ inside
      have size := (space.memory.size_of_read (by
        rwa [AddressSpace.readImage, if_pos resident] at read)).trans header.toNat_segmentTableSize
      have bound := header.segmentTableSize.toNat_lt
      rw [header.toNat_segmentTableSize] at bound
      obtain ⟨segments, decoded, length⟩ := Segment.exists_decodeTable (Nat.le_of_eq size.symm)
        bound (FileHeader.segmentSize_le_of_defect? sound some)
      refine ⟨segments, ?_, ?_⟩
      · simp only [resident, not_true, ↓reduceIte, read]
        exact decoded
      · rw [length, if_pos ⟨somewhere, resident⟩]
    · refine ⟨[], ?_, ?_⟩
      · simp only [resident, Bool.false_eq_true, not_false_eq_true, ↓reduceIte]
        rfl
      · rw [if_neg fun there => resident there.2]
        rfl

/-- What is read in front of everything else is the largest header that there is room for. -/
theorem readImage_head {space : AddressSpace} (shows : space.Shows bytes) :
    space.readImage 0 (min maxHeaderSize space.length) =
      .ok (bytes.extract 0 (min maxHeaderSize.toNat bytes.size)) := by
  have head : (min maxHeaderSize space.length).toNat = min maxHeaderSize.toNat bytes.size := by
    rw [Word.toNat_min, shows.length]
  have read := shows.readImage 0 (min maxHeaderSize space.length)
  rw [head, UInt64.toNat_zero, Nat.zero_add] at read
  exact read (Nat.min_le_right _ _)

/-- What the dynamic segment says is what its entries amount to. -/
theorem exists_ofEntries_of_readLinkage? {space : AddressSpace} {layout : Layout}
    {segments : List Segment} {linkage : Linkage}
    (told : readLinkage? space layout segments = some linkage) :
    ∃ (segment : Segment) (byteSize : UInt64) (entries : List DynamicEntry), linkage =
      Linkage.ofEntries space layout (space.normalize segment.vaddr) byteSize entries := by
  obtain ⟨segment, -, taken⟩ := Option.bind_eq_some_iff.mp told
  obtain ⟨entries, made⟩ := Linkage.exists_ofEntries_of_read (eq_ok_of_toOption taken)
  exact ⟨segment, _, entries, made⟩

/-- The image that a header and the segments it tells of start. -/
def assembled (files : Files) (config : Config) (space : AddressSpace) (name : String)
    (path? : Option String) (header : FileHeader) (segments : List Segment) : Image :=
  let space := space.withSegments segments
  let source : ImageSource := { space, files, path? }
  let statics := source.staticSymbols header.layout (source.sections header)
  { name, path?, space, header, segments
    sections := statics.2
    statics? := statics.1
    linkage? := readLinkage? space header.layout segments
    plt := config.plt }

/-- Loading reads a header and segments, and nothing behind them can make it fail. -/
theorem load_eq (files : Files) (config : Config) (space : AddressSpace) (name : String)
    (path? : Option String) :
    load files config space name path? = (do
      let head ← space.readImage 0 (min maxHeaderSize space.length)
      let header ← FileHeader.decode head
      let segments ← readSegments space header
      return assembled files config space name path? header segments) := rfl

/-- An image comes from a header and segments that were read in front of everything else. -/
theorem exists_of_load {files : Files} {config : Config} {space : AddressSpace} {name : String}
    {path? : Option String} {image : Image}
    (loaded : load files config space name path? = .ok image) :
    ∃ head header segments,
      space.readImage 0 (min maxHeaderSize space.length) = .ok head ∧
      FileHeader.decode head = .ok header ∧ readSegments space header = .ok segments ∧
      image = assembled files config space name path? header segments := by
  rw [load_eq] at loaded
  cases front : space.readImage 0 (min maxHeaderSize space.length) with
  | error fault =>
      rw [front] at loaded
      cases loaded
  | ok head =>
      cases decoded : FileHeader.decode head with
      | error fault =>
          simp only [front, bind, Except.bind, decoded] at loaded
          cases loaded
      | ok header =>
          cases listed : readSegments space header with
          | error fault =>
              simp only [front, bind, Except.bind, decoded, listed] at loaded
              cases loaded
          | ok segments =>
              simp only [front, bind, Except.bind, decoded, listed] at loaded
              cases loaded
              exact ⟨head, header, segments, rfl, decoded, listed, rfl⟩

/-- The bytes that are read first are enough to tell what the header is, or why there is none. -/
theorem decode_head (bytes : Bytes) :
    FileHeader.decode (bytes.extract 0 (min maxHeaderSize.toNat bytes.size)) =
      FileHeader.decode bytes := by
  by_cases few : maxHeaderSize.toNat ≤ bytes.size
  · rw [Nat.min_eq_left few]
    apply FileHeader.decode_extract_eq
    · decide
    · intro ident _
      unfold Layout.headerSize
      split <;> decide
  · rw [Array.extract_eq_self_of_le (by omega)]

/-- An image comes of its header, which is all that can keep it from being loaded. -/
theorem load_of_shows (files : Files) (config : Config) {space : AddressSpace} (name : String)
    (path? : Option String) (shows : space.Shows bytes) {header : FileHeader}
    (decoded : FileHeader.decode bytes = .ok header) :
    ∃ segments, readSegments space header = .ok segments ∧
      load files config space name path? =
        .ok (assembled files config space name path? header segments) := by
  obtain ⟨-, -, -, sound⟩ := FileHeader.decode_eq_ok_iff.mp decoded
  obtain ⟨segments, listed, -⟩ := exists_readSegments shows sound
  refine ⟨segments, listed, ?_⟩
  rw [load_eq, readImage_head shows]
  simp only [bind, Except.bind, decode_head, decoded, listed]
  rfl

/-- Bytes that start with an accepted header are an image, wherever they are placed. -/
theorem exists_ofBytes (files : Files) (config : Config) (path? : Option String)
    {header : FileHeader} (decoded : FileHeader.decode bytes = .ok header)
    (fits : base.toNat + bytes.size < UInt64.size) :
    ∃ segments, ofBytes files config bytes base path? =
      .ok (assembled files config (.placed base bytes config.io)
        (path?.getD (anonymousName base)) path? header segments) := by
  obtain ⟨segments, -, loaded⟩ := load_of_shows files config (path?.getD (anonymousName base)) path?
    (AddressSpace.shows_placed fits) decoded
  exact ⟨segments, loaded⟩

end Image

end ElfLens
