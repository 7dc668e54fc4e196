import ElfLens.Proofs.ImageConstruction

set_option autoImplicit false

namespace ElfLens

/-- The range of file offsets that the header tells lies inside so many bytes. -/
def SectionHeader.IsInside (header : SectionHeader) (size : Nat) : Prop :=
  header.offset.toNat + header.byteSize.toNat ≤ size

instance (header : SectionHeader) (size : Nat) : Decidable (header.IsInside size) :=
  inferInstanceAs (Decidable (_ ≤ _))

namespace Section

/-- The bytes of the section are where the header, the size of the image and the presence of a file
say they are. -/
structure FollowsRule (sec : Section) (size : Nat) (path? : Option String) : Prop where
  isEmpty : sec.residency = .empty ↔
    (sec.isNoBits ∨ sec.byteSize = 0) ∨ ¬ sec.IsInside size ∧ path? = none
  isResident : sec.residency = .resident ↔
    sec.IsInside size ∧ ¬ (sec.isNoBits ∨ sec.byteSize = 0)
  isFileBacked : sec.residency = .fileBacked ↔
    ¬ sec.IsInside size ∧ path?.isSome ∧ ¬ (sec.isNoBits ∨ sec.byteSize = 0)

/-- The bytes of the section were only to be found in the file, and the file was asked for them:
they were fetched, or they are lost. -/
structure WasFetched (sec : Section) (size : Nat) (files : Files) (limits : Limits)
    (path : String) : Prop where
  outside : ¬ sec.IsInside size
  filled : ¬ (sec.isNoBits ∨ sec.byteSize = 0)
  outcome : (∃ content part, files path = some content ∧
      content.slice? sec.offset.toNat sec.byteSize.toNat = some part ∧
      sec.residency = .fetched part) ∨
    sec.residency = .empty ∧
      ∃ fault, files.fetch limits path sec.offset sec.byteSize = .error fault

/-- What a section gives: all of its bytes, none if it is empty, or what keeps the file from giving
them. -/
def Gives (sec : Section) (path? : Option String) : Except Fault Bytes → Prop
  | .ok bytes => bytes.size = sec.byteSize.toNat ∨ sec.residency = .empty ∧ bytes = #[]
  | .error fault => sec.residency = .fileBacked ∧
      ∃ path, path? = some path ∧ fault = .fileRead path sec.offset.toNat sec.byteSize.toNat

theorem FollowsRule.ne_fetched {sec : Section} {size : Nat} {path? : Option String}
    (rule : sec.FollowsRule size path?) (part : Bytes) : sec.residency ≠ .fetched part := by
  intro place
  have unempty := mt rule.isEmpty.mpr (by rw [place]; exact Residency.noConfusion)
  have absent := mt rule.isResident.mpr (by rw [place]; exact Residency.noConfusion)
  have unbacked := mt rule.isFileBacked.mpr (by rw [place]; exact Residency.noConfusion)
  by_cases hollow : sec.isNoBits ∨ sec.byteSize = 0
  · exact unempty (.inl hollow)
  · by_cases inside : sec.IsInside size
    · exact absent ⟨inside, hollow⟩
    · cases path? with
      | none => exact unempty (.inr ⟨inside, rfl⟩)
      | some path => exact unbacked ⟨inside, rfl, hollow⟩

theorem settle_of_ok {sec : Section} (bytes : Bytes) (unbacked : sec.residency ≠ .fileBacked) :
    sec.settle (.ok bytes) = sec := if_neg unbacked

theorem residency_settle_ne (sec : Section) (outcome : Except Fault Bytes) :
    (sec.settle outcome).residency ≠ .fileBacked := by
  unfold settle
  split
  · exact Residency.noConfusion
  · split
    · exact Residency.noConfusion
    · assumption

end Section

namespace AddressSpace

theorem Shows.withSegments {space : AddressSpace} {bytes : Bytes} (shows : space.Shows bytes)
    (segments : List Segment) : (space.withSegments segments).Shows bytes := by
  obtain ⟨memory, placement, limits⟩ := space
  cases placement <;> exact ⟨shows.length, shows.readImage⟩

theorem limits_withSegments (space : AddressSpace) (segments : List Segment) :
    (space.withSegments segments).limits = space.limits := by
  obtain ⟨memory, placement, limits⟩ := space
  cases placement <;> rfl

end AddressSpace

namespace ImageSource

variable {source : ImageSource} {bytes : Bytes}

/-- Reading a section for good a second time changes nothing. -/
theorem settle_settle (source : ImageSource) (sec : Section) :
    (sec.settle (source.sectionBytes sec)).settle
        (source.sectionBytes (sec.settle (source.sectionBytes sec))) =
      sec.settle (source.sectionBytes sec) := by
  rw [sectionBytes_settle]
  exact Section.settle_of_ok _ (Section.residency_settle_ne sec _)

/-- Some sections are others of which none was read for good but some at the places that were asked
for. -/
structure Settles (source : ImageSource) (fresh : List Section) (asked : Nat → Prop)
    (now : List Section) : Prop where
  length : now.length = fresh.length
  place : ∀ (index : Nat) (before after : Section), fresh[index]? = some before →
    now[index]? = some after →
    after = before ∨ asked index ∧ after = before.settle (source.sectionBytes before)

namespace Settles

variable {fresh now : List Section} {asked : Nat → Prop}

/-- What stands at a place was made from what stood there before anything was read. -/
theorem exists_before (settles : source.Settles fresh asked now) {index : Nat} {after : Section}
    (stands : now[index]? = some after) :
    ∃ before, fresh[index]? = some before ∧
      (after = before ∨ asked index ∧ after = before.settle (source.sectionBytes before)) := by
  have inside := (List.getElem?_eq_some_iff.mp stands).1
  rw [settles.length] at inside
  have there := List.getElem?_eq_getElem inside
  exact ⟨_, there, settles.place index _ after there stands⟩

theorem refl (source : ImageSource) (fresh : List Section) (asked : Nat → Prop) :
    source.Settles fresh asked fresh where
  length := rfl
  place _ _ _ stands stands' := .inl (Option.some.inj (stands'.symm.trans stands))

theorem keep (settles : source.Settles fresh asked now) (index : Nat) (wanted : asked index) :
    source.Settles fresh asked (source.keep now index).2 := by
  cases stands : now[index]? with
  | none =>
      rw [ImageSource.keep, stands]
      exact settles
  | some sec =>
      rw [keep_of_getElem? stands]
      refine ⟨List.length_set.trans settles.length, ?_⟩
      intro position before after stands' stands''
      rw [List.getElem?_set] at stands''
      by_cases here : index = position
      · subst here
        rw [if_pos rfl, if_pos (List.getElem?_eq_some_iff.mp stands).1] at stands''
        obtain rfl := Option.some.inj stands''
        refine .inr ⟨wanted, ?_⟩
        rcases settles.place index before sec stands' stands with rfl | ⟨-, rfl⟩
        · rfl
        · exact source.settle_settle before
      · rw [if_neg here] at stands''
        exact settles.place position before after stands' stands''

end Settles

/-- Looking for the link-time symbols reads no other sections for good than theirs. -/
theorem settles_staticSymbols (source : ImageSource) (layout : Layout) (sections : List Section) :
    source.Settles sections (IsAsked sections) (source.staticSymbols layout sections).2 :=
  property_of_staticSymbols (.refl source sections _)
    fun _ index wanted settles => settles.keep index wanted

theorem IsAsked.congr {fresh now : List Section}
    (told : now.map Section.told = fresh.map Section.told) {index : Nat}
    (asked : IsAsked fresh index) : IsAsked now index := by
  obtain ⟨table, found, place⟩ := asked
  let wanted : SectionHeader × Nat × String → Bool := fun told => told.1.kind = .symTab
  have same := congrArg (List.find? wanted) told
  rw [List.find?_map, List.find?_map] at same
  change (now.find? (·.kind = .symTab)).map _ = (fresh.find? (·.kind = .symTab)).map _ at same
  rw [found] at same
  obtain ⟨other, found', heard⟩ := Option.map_eq_some_iff.mp same
  have header : other.toSectionHeader = table.toSectionHeader := congrArg Prod.fst heard
  have index : other.index = table.index := congrArg (fun told => told.2.1) heard
  refine ⟨other, found', ?_⟩
  rw [header, index]
  exact place

theorem index_of_sections {header : FileHeader} {index : Nat} {sec : Section}
    (stands : (source.sections header)[index]? = some sec) :
    sec.index = index ∧ sec.residency = source.residencyOf sec.toSectionHeader := by
  unfold sections at stands
  rw [List.getElem?_map, List.getElem?_zipIdx, Nat.zero_add, Option.map_map] at stands
  obtain ⟨told, -, rfl⟩ := Option.map_eq_some_iff.mp stands
  exact ⟨rfl, rfl⟩

theorem followsRule_of_unread (shows : source.space.Shows bytes) {sec : Section}
    (unread : sec.residency = source.residencyOf sec.toSectionHeader) :
    sec.FollowsRule bytes.size source.path? := by
  have blank : sec.isBlank ↔ sec.isNoBits ∨ sec.byteSize = 0 := decide_eq_true_iff
  have resident : source.space.isResident sec.offset sec.byteSize ↔ sec.IsInside bytes.size := by
    rw [shows.isResident, decide_eq_true_eq]
    rfl
  simp only [residencyOf, blank, resident] at unread
  by_cases hollow : sec.isNoBits ∨ sec.byteSize = 0
  · rw [if_pos hollow] at unread
    constructor <;> simp [unread, hollow]
  · rw [if_neg hollow] at unread
    by_cases inside : sec.IsInside bytes.size
    · rw [if_pos inside] at unread
      constructor <;> simp [unread, hollow, inside]
    · rw [if_neg inside] at unread
      cases backed : source.path? with
      | none =>
          rw [backed] at unread
          constructor <;> simp [unread, hollow, inside]
      | some path =>
          rw [backed] at unread
          constructor <;> simp [unread, hollow, inside]

theorem fetch_of_path {path : String} (named : source.path? = some path) {offset length : UInt64} :
    source.fetch offset length =
      source.files.fetch source.space.limits path offset length := by
  rw [fetch, named]

theorem gives_of_followsRule (source : ImageSource) (shows : source.space.Shows bytes)
    {sec : Section} (rule : sec.FollowsRule bytes.size source.path?) :
    sec.Gives source.path? (source.sectionBytes sec) := by
  unfold sectionBytes
  cases place : sec.residency with
  | empty => exact .inr ⟨place, rfl⟩
  | fetched part => exact absurd place (rule.ne_fetched part)
  | resident =>
      have inside := (rule.isResident.mp place).1
      dsimp only
      rw [shows.readImage _ _ inside]
      refine .inl ?_
      rw [Array.size_extract, Nat.min_eq_left inside, Nat.add_sub_cancel_left]
  | fileBacked =>
      obtain ⟨-, backed, -⟩ := rule.isFileBacked.mp place
      obtain ⟨path, named⟩ := Option.isSome_iff_exists.mp backed
      dsimp only
      rw [fetch_of_path named]
      cases fetched : source.files.fetch source.space.limits path sec.offset sec.byteSize with
      | error fault => exact ⟨place, path, named, Files.eq_of_fetch_eq_error fetched⟩
      | ok part =>
          obtain ⟨_, -, sliced, -⟩ := Files.fetch_eq_ok_iff.mp fetched
          exact .inl (Bytes.size_of_slice? sliced)

theorem gives_of_wasFetched (source : ImageSource) {sec : Section} {size : Nat} {files : Files}
    {limits : Limits} {path : String} (fetched : sec.WasFetched size files limits path) :
    sec.Gives source.path? (source.sectionBytes sec) := by
  unfold sectionBytes
  rcases fetched.outcome with ⟨content, part, -, sliced, place⟩ | ⟨place, -⟩
  · rw [place]
    exact .inl (Bytes.size_of_slice? sliced)
  · rw [place]
    exact .inr ⟨place, rfl⟩

/-- What only the file has is fetched from it or lost, and no other section is changed by reading it
for good. -/
theorem settle_of_unread (shows : source.space.Shows bytes) {sec : Section}
    (unread : sec.residency = source.residencyOf sec.toSectionHeader) :
    sec.settle (source.sectionBytes sec) = sec ∨
      ∃ path, source.path? = some path ∧ (sec.settle (source.sectionBytes sec)).WasFetched
        bytes.size source.files source.space.limits path := by
  have rule := followsRule_of_unread shows unread
  by_cases place : sec.residency = .fileBacked
  · obtain ⟨outside, backed, filled⟩ := rule.isFileBacked.mp place
    obtain ⟨path, named⟩ := Option.isSome_iff_exists.mp backed
    refine .inr ⟨path, named, ?_⟩
    have read : source.sectionBytes sec =
        source.files.fetch source.space.limits path sec.offset sec.byteSize := by
      rw [sectionBytes, place]
      exact fetch_of_path named
    rw [read]
    cases fetched : source.files.fetch source.space.limits path sec.offset sec.byteSize with
    | error fault => exact ⟨outside, filled, .inr ⟨rfl, fault, fetched⟩⟩
    | ok part =>
        obtain ⟨content, present, sliced, -⟩ := Files.fetch_eq_ok_iff.mp fetched
        rw [Section.settle, if_pos place]
        exact ⟨outside, filled, .inl ⟨content, part, present, sliced, rfl⟩⟩
  · have gives := source.gives_of_followsRule shows rule
    cases read : source.sectionBytes sec with
    | error fault =>
        rw [read] at gives
        exact absurd gives.1 place
    | ok part => exact .inl (Section.settle_of_ok part place)

/-- Each section of an image knows its place, and its bytes are where they were to be found, or
where looking for the link-time symbols left them. -/
theorem settled_of_staticSymbols (source : ImageSource) (shows : source.space.Shows bytes)
    (header : FileHeader) {index : Nat} {sec : Section}
    (stands : (source.staticSymbols header.layout (source.sections header)).2[index]? = some sec) :
    sec.index = index ∧ (sec.FollowsRule bytes.size source.path? ∨
      IsAsked (source.sections header) index ∧ ∃ path, source.path? = some path ∧
        sec.WasFetched bytes.size source.files source.space.limits path) := by
  have settles := source.settles_staticSymbols header.layout (source.sections header)
  obtain ⟨before, fresh, settled⟩ := settles.exists_before stands
  obtain ⟨placed, unread⟩ := index_of_sections fresh
  have rule := followsRule_of_unread shows unread
  rcases settled with rfl | ⟨asked, rfl⟩
  · exact ⟨placed, .inl rule⟩
  · rcases settle_of_unread shows unread with same | fetched
    · rw [same]
      exact ⟨placed, .inl rule⟩
    · have heard := Section.told_settle before (source.sectionBytes before)
      exact ⟨(congrArg (fun told => told.2.1) heard).trans placed, .inr ⟨asked, fetched⟩⟩

end ImageSource

namespace Image

/-- The segments and the sections of an image with so many bytes are all there or none of them, each
knows its place, and the bytes of each section are where they should be. -/
structure HoldsTables (image : Image) (files : Files) (limits : Limits) (size : Nat)
    (path? : Option String) : Prop where
  segments : image.segments = [] ∨ image.segments.length = image.header.segmentCount.toNat
  segmentIndex : ∀ (index : Nat) (segment : Segment), image.segments[index]? = some segment →
    segment.index = index
  sections : image.sections = [] ∨ image.sections.length = image.header.sectionCount.toNat
  sectionIndex : ∀ (index : Nat) (sec : Section), image.sections[index]? = some sec →
    sec.index = index
  residency : ∀ sec ∈ image.sections, sec.FollowsRule size path? ∨
    ImageSource.IsAsked image.sections sec.index ∧
      ∃ path, path? = some path ∧ sec.WasFetched size files limits path
  bytes : ∀ sec ∈ image.sections, ∀ later : Files,
    sec.Gives path? (image.sectionBytes later sec)

theorem index_of_readSegments {space : AddressSpace} {header : FileHeader}
    {segments : List Segment} (listed : readSegments space header = .ok segments) {index : Nat}
    {segment : Segment} (stands : segments[index]? = some segment) : segment.index = index := by
  unfold readSegments at listed
  split at listed
  · cases listed
    cases stands
  · dsimp only at listed
    split at listed
    · cases listed
      cases stands
    · cases read : space.readImage header.segmentOffset header.segmentTableSize with
      | error fault =>
          rw [read] at listed
          cases listed
      | ok table =>
          rw [read] at listed
          exact Segment.index_of_decodeTable listed stands

theorem holdsTables_of_load {files : Files} {config : Config} {space : AddressSpace} {name : String}
    {path? : Option String} {bytes : Bytes} {image : Image} (shows : space.Shows bytes)
    (loaded : load files config space name path? = .ok image) :
    image.HoldsTables files space.limits bytes.size path? := by
  have parts := holdsReadable_of_load shows loaded
  obtain ⟨head, header, segments, -, -, listed, rfl⟩ := exists_of_load loaded
  let source : ImageSource := ⟨space.withSegments segments, files, path?⟩
  have shows' : source.space.Shows bytes := shows.withSegments segments
  have told : (source.staticSymbols header.layout (source.sections header)).2.map Section.told =
      (source.sections header).map Section.told := ImageSource.told_staticSymbols header.layout
  constructor
  case segments =>
    have length := parts.segments
    split at length
    · exact .inr length
    · exact .inl (List.eq_nil_of_length_eq_zero length)
  case segmentIndex => exact fun index segment stands => index_of_readSegments listed stands
  case sections =>
    have length := parts.sections
    split at length
    · exact .inr length
    · exact .inl (List.eq_nil_of_length_eq_zero length)
  case sectionIndex =>
    exact fun index sec stands => (source.settled_of_staticSymbols shows' header stands).1
  case residency =>
    intro sec listed
    obtain ⟨index, stands⟩ := List.getElem?_of_mem listed
    obtain ⟨rfl, rule | ⟨asked, fetched⟩⟩ := source.settled_of_staticSymbols shows' header stands
    · exact .inl rule
    · rw [← space.limits_withSegments segments]
      exact .inr ⟨asked.congr told, fetched⟩
  case bytes =>
    intro sec listed later
    let asked : ImageSource := { source with files := later }
    change sec.Gives asked.path? (asked.sectionBytes sec)
    obtain ⟨index, stands⟩ := List.getElem?_of_mem listed
    obtain ⟨-, rule | ⟨-, path, -, fetched⟩⟩ :=
      source.settled_of_staticSymbols shows' header stands
    · exact asked.gives_of_followsRule shows' rule
    · exact asked.gives_of_wasFetched fetched

/-- A file that can be loaded is not empty, and its image consists of its bytes. -/
theorem exists_load_of_ofFile {files : Files} {config : Config} {path : String} {bytes : Bytes}
    {image : Image} (found : files path = some bytes) (small : bytes.size < UInt64.size)
    (opened : ofFile files config path = .ok image) :
    ∃ space : AddressSpace, space.Shows bytes ∧ space.limits = config.io ∧
      load files config space path (some path) = .ok image := by
  rw [ofFile, Files.content, found] at opened
  -- Not even an empty range of an empty file can be read.
  have filled : bytes ≠ #[] := by
    rintro rfl
    obtain ⟨head, -, -, front, -⟩ := exists_of_load opened
    unfold AddressSpace.readImage at front
    split at front <;> change Except.error _ = Except.ok head at front <;> cases front
  exact ⟨_, AddressSpace.shows_file filled small, rfl, opened⟩

/-- Of an image that is made from bytes or from a file, the segments and sections are all there or
none of them, and where the bytes of a section are depends on its header, the size of the image and
the presence of a file alone, unless the file was asked for the link-time symbols in it. -/
theorem holdsTables (files : Files) (config : Config) (bytes : Bytes) :
    (∀ base path? image, base.toNat + bytes.size < UInt64.size →
      ofBytes files config bytes base path? = .ok image →
      image.HoldsTables files config.io bytes.size path?) ∧
    ∀ path image, bytes.size < UInt64.size → files path = some bytes →
      ofFile files config path = .ok image →
      image.HoldsTables files config.io bytes.size (some path) := by
  refine ⟨?_, ?_⟩
  · intro base path? image fits loaded
    exact holdsTables_of_load (AddressSpace.shows_placed fits) loaded
  · intro path image small found opened
    obtain ⟨space, shows, limits, loaded⟩ := exists_load_of_ofFile found small opened
    rw [← limits]
    exact holdsTables_of_load shows loaded

/-- The link-time symbols lie behind the part of the object that is placed, and are fetched. -/
theorem fourSectionObject_tables :
    let files : Files := fun path => if path = "object" then some fourSectionObject else none
    ∃ part opened,
      ofBytes files {} (fourSectionObject.extract 0 60) 0x1000 (some "object") = .ok part ∧
      ofFile files {} "object" = .ok opened ∧
      part.sections.map (·.residency) = [.fetched (fourSectionObject.extract 56 88), .resident,
        .fileBacked, .fileBacked] ∧
      part.HoldsTables files ({} : Config).io 60 (some "object") ∧
      opened.HoldsTables files ({} : Config).io fourSectionObject.size (some "object") := by
  intro files
  have told : (ofBytes files {} (fourSectionObject.extract 0 60) 0x1000
      (some "object")).toOption.map (fun part => part.sections.map (·.residency)) =
        some [.fetched (fourSectionObject.extract 56 88), .resident, .fileBacked, .fileBacked] := by
    decide +kernel
  have also : (ofFile files {} "object").toOption.map (·.sections.length) = some 4 := by
    decide +kernel
  obtain ⟨part, loaded, residencies⟩ := exists_of_toOption_map told
  obtain ⟨opened, read, -⟩ := exists_of_toOption_map also
  have size : (fourSectionObject.extract 0 60).size = 60 := by decide +kernel
  have placed := (holdsTables files {} (fourSectionObject.extract 0 60)).1 0x1000 (some "object")
    part (by decide +kernel) loaded
  rw [size] at placed
  exact ⟨part, opened, loaded, read, residencies, placed, (holdsTables files {}
    fourSectionObject).2 "object" opened (by decide +kernel) rfl read⟩

end Image

end ElfLens
