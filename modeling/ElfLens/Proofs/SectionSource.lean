import ElfLens.Image.SymbolView

set_option autoImplicit false

namespace ElfLens

namespace ImageSource

variable {left right : ImageSource}

theorem sectionHeaders_congr (same : left.readRange = right.readRange) (header : FileHeader) :
    left.sectionHeaders header = right.sectionHeaders header := by
  unfold sectionHeaders
  rw [same]

theorem sectionNames?_congr (same : left.readRange = right.readRange) (header : FileHeader)
    (headers : List SectionHeader) :
    left.sectionNames? header headers = right.sectionNames? header headers := by
  unfold sectionNames?
  rw [same]

/-- Where there is a file, a section that has not been read yet gives the range its header tells. -/
theorem sectionBytes_of_unread {source : ImageSource} {sec : Section}
    (backed : source.path?.isSome)
    (unread : sec.residency = source.residencyOf sec.toSectionHeader) :
    source.sectionBytes sec =
      if sec.isBlank then .ok #[] else source.readRange sec.offset sec.byteSize := by
  rw [sectionBytes, unread, residencyOf, readRange]
  by_cases blank : sec.isBlank
  · rw [if_pos blank, if_pos blank]
  · rw [if_neg blank, if_neg blank]
    by_cases resident : source.space.isResident sec.offset sec.byteSize
    · rw [if_pos resident, if_pos resident]
    · rw [if_neg resident, if_neg resident, if_pos backed]

/-- A section that was read for good gives what was read, or nothing if that failed. -/
theorem sectionBytes_settle (source : ImageSource) (sec : Section) :
    source.sectionBytes (sec.settle (source.sectionBytes sec)) =
      .ok ((source.sectionBytes sec).toOption.getD #[]) := by
  cases outcome : source.sectionBytes sec with
  | error fault => rfl
  | ok bytes =>
      rw [Section.settle]
      by_cases behind : sec.residency = .fileBacked
      · rw [if_pos behind]
        rfl
      · rw [if_neg behind, outcome]
        rfl

/-- The link-time symbols or their strings are read from the section at the place. -/
def IsAsked (sections : List Section) (index : Nat) : Prop :=
  ∃ table, sections.find? (·.kind = .symTab) = some table ∧
    (index = table.index ∨ index = table.link.toNat)

/-- What reading one of these sections for good preserves, looking for the link-time symbols
preserves. -/
theorem property_of_staticSymbols {source : ImageSource} {layout : Layout}
    {sections : List Section} {property : List Section → Prop} (fresh : property sections)
    (step : ∀ now index, IsAsked sections index → property now →
      property (source.keep now index).2) :
    property (source.staticSymbols layout sections).2 := by
  unfold staticSymbols
  cases found : sections.find? (·.kind = .symTab) with
  | none => exact fresh
  | some table =>
      dsimp only
      by_cases outside : sections.length ≤ table.link.toNat
      · rw [if_pos outside]
        exact fresh
      · rw [if_neg outside]
        have symbols := step sections table.index ⟨table, found, .inl rfl⟩ fresh
        generalize source.keep sections table.index = kept at symbols
        obtain ⟨read, rest⟩ := kept
        cases read with
        | none => exact symbols
        | some _ =>
            have strings := step rest table.link.toNat ⟨table, found, .inr rfl⟩ symbols
            dsimp only
            generalize source.keep rest table.link.toNat = kept at strings
            obtain ⟨read, last⟩ := kept
            cases read with
            | none => exact strings
            | some _ =>
                dsimp only
                split <;> exact strings

/-- The same ranges lie in both images, and every range gives the same, from the image and from the
file. -/
structure Agrees (left right : ImageSource) : Prop where
  isResident : left.space.isResident = right.space.isResident
  readImage : left.space.readImage = right.space.readImage
  fetch : left.fetch = right.fetch
  path? : left.path? = right.path?

namespace Agrees

theorem readRange (agree : left.Agrees right) : left.readRange = right.readRange := by
  funext offset length
  rw [ImageSource.readRange, ImageSource.readRange, agree.isResident, agree.readImage, agree.fetch]

theorem residencyOf (agree : left.Agrees right) : left.residencyOf = right.residencyOf := by
  funext header
  rw [ImageSource.residencyOf, ImageSource.residencyOf, agree.isResident, agree.path?]

theorem sectionBytes (agree : left.Agrees right) : left.sectionBytes = right.sectionBytes := by
  funext sec
  rw [ImageSource.sectionBytes, ImageSource.sectionBytes, agree.readImage, agree.fetch]

theorem sections (agree : left.Agrees right) : left.sections = right.sections := by
  funext header
  unfold ImageSource.sections
  dsimp only
  rw [sectionHeaders_congr agree.readRange, sectionNames?_congr agree.readRange, agree.residencyOf]

theorem keep (agree : left.Agrees right) : left.keep = right.keep := by
  funext sections index
  unfold ImageSource.keep
  rw [agree.sectionBytes]

theorem staticSymbols (agree : left.Agrees right) :
    left.staticSymbols = right.staticSymbols := by
  funext layout sections
  unfold ImageSource.staticSymbols
  rw [agree.keep]

end Agrees

end ImageSource

/-- The entry of a link-time symbol depends on nothing but the link-time symbols. -/
theorem Image.findStatic?_congr {left right : Image} (statics : left.statics? = right.statics?)
    (name : String) :
    (left.findStatic? name).map (·.symbol) = (right.findStatic? name).map (·.symbol) := by
  unfold Image.findStatic?
  rw [statics]
  cases right.statics? with
  | none => rfl
  | some statics =>
      rw [Option.bind_eq_bind, Option.bind_some, Option.bind_some, Option.map_map, Option.map_map]
      rfl

end ElfLens
