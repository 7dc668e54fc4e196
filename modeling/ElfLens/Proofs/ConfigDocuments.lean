import ElfLens.Config.Document
import ElfLens.Proofs.JsonPrinting
import ElfLens.Proofs.JsonRecords
import ElfLens.Proofs.JsonTrees

set_option autoImplicit false

namespace ElfLens

/-- A value that can be configured. -/
inductive Setting where
  | stubStride
  | pointerWidth
  | executableOnly
  | coalesce
  | fetchBytes
  | tableBytes

namespace Setting

def group : Setting → String
  | stubStride | pointerWidth => "plt"
  | executableOnly | coalesce => "maps"
  | fetchBytes | tableBytes => "io"

def name : Setting → String
  | stubStride => "stub_stride"
  | pointerWidth => "pointer_width"
  | executableOnly => "executable_only"
  | coalesce => "coalesce"
  | fetchBytes => "max_fetch_bytes"
  | tableBytes => "max_table_bytes"

def toJson (config : Config) : Setting → Json.Value
  | stubStride => .ofWord config.plt.stubStride
  | pointerWidth => .ofWord config.plt.pointerWidth
  | executableOnly => .bool config.maps.executableOnly
  | coalesce => .bool config.maps.coalesce
  | fetchBytes => .ofWord config.io.fetchBytes
  | tableBytes => .ofWord config.io.tableBytes

end Setting

namespace Config

/-- The configuration with these settings of another one, and the others at their defaults. -/
def keep (config : Config) (chosen : Setting → Bool) : Config where
  plt := {
    stubStride :=
      if chosen .stubStride then config.plt.stubStride else ({} : PltShape).stubStride
    pointerWidth :=
      if chosen .pointerWidth then config.plt.pointerWidth else ({} : PltShape).pointerWidth }
  maps := {
    executableOnly :=
      if chosen .executableOnly then config.maps.executableOnly
      else ({} : RegionPolicy).executableOnly
    coalesce := if chosen .coalesce then config.maps.coalesce else ({} : RegionPolicy).coalesce }
  io := {
    fetchBytes := if chosen .fetchBytes then config.io.fetchBytes else ({} : Limits).fetchBytes
    tableBytes := if chosen .tableBytes then config.io.tableBytes else ({} : Limits).tableBytes }

/-- Of the settings of a group, an object names the chosen ones, each once and as the configuration
has it. Other members may stand anywhere. -/
def NamesOf (config : Config) (chosen : Setting → Bool) (group : String)
    (members : List (Option String × Json.Value)) : Prop :=
  ∀ setting : Setting, setting.group = group →
    Json.GivesOnly members setting.name
      (if chosen setting then some (setting.toJson config) else none)

/-- An object names the chosen settings in their groups, each once and as the configuration has it.
A group without any of them may be missing, and other members may stand anywhere. -/
def Names (config : Config) (chosen : Setting → Bool)
    (members : List (Option String × Json.Value)) : Prop :=
  ∀ group ∈ fieldNames,
    (∃ inner, Json.GivesOnly members group (some (.object inner)) ∧
      config.NamesOf chosen group inner) ∨
    (Json.GivesOnly members group none ∧
      ∀ setting : Setting, setting.group = group → chosen setting = false)

/-- A document gives a group more than once, or a group gives a setting more than once. -/
def Repeats (document : Json.Value) : Prop :=
  ∃ setting : Setting, document.Repeats setting.group ∨
    ∃ inner, document.Gives fieldNames setting.group inner ∧ inner.Repeats setting.name

/-- A document, or one of its groups, has a member whose name spells no text. -/
def HasNameless (document : Json.Value) : Prop :=
  document.HasNameless ∨ ∃ (setting : Setting) (inner : Json.Value),
    document.Gives fieldNames setting.group inner ∧ inner.HasNameless

theorem group_mem_fieldNames (setting : Setting) : setting.group ∈ fieldNames := by
  cases setting <;> decide

/-! ### Chosen settings -/

section

variable {config : Config} {chosen : Setting → Bool} {members : List (Option String × Json.Value)}

/-- A setting is read as the configuration has it, or left at its default. -/
theorem fieldOr?_of_chosen {α : Type} {fields : List (String × Json.Value)} {setting : Setting}
    (found : fields.lookup setting.name =
      if chosen setting then some (setting.toJson config) else none)
    {read : Json.Value → Option α} {result : α} (reads : read (setting.toJson config) = some result)
    (default : α) :
    Json.fieldOr? fields setting.name default read =
      some (if chosen setting then result else default) := by
  rw [Json.fieldOr?, found]
  cases chosen setting
  · rfl
  · exact reads

/-- The two settings of a group are read each on its own. -/
theorem group_of_namesOf {α β γ : Type} (one two : Setting) (together : two.group = one.group)
    (texts : ¬ (Json.Value.object members).HasNameless)
    (given : config.NamesOf chosen one.group members) {readOne : Json.Value → Option α}
    {readTwo : Json.Value → Option β} {first : α} {second : β}
    (readsOne : readOne (one.toJson config) = some first)
    (readsTwo : readTwo (two.toJson config) = some second) (defaultOne : α) (defaultTwo : β)
    (make : α → β → γ) :
    (do
      let fields ← (Json.Value.object members).fields? [one.name, two.name]
      let x ← Json.fieldOr? fields one.name defaultOne readOne
      let y ← Json.fieldOr? fields two.name defaultTwo readTwo
      return make x y) =
      some (make (if chosen one then first else defaultOne)
        (if chosen two then second else defaultTwo)) := by
  have gives_one := given one rfl
  have gives_two := given two together
  have once : ∀ name ∈ [one.name, two.name], ∃ value?, Json.GivesOnly members name value? := by
    simp only [List.forall_mem_cons]
    exact ⟨⟨_, gives_one⟩, ⟨_, gives_two⟩, List.forall_mem_nil _⟩
  obtain ⟨fields, read, found⟩ := Json.exists_fields?_of_once texts once
  have at_one := fieldOr?_of_chosen (found _ List.mem_cons_self _ gives_one) readsOne defaultOne
  have at_two := fieldOr?_of_chosen
    (found _ (List.mem_cons_of_mem _ List.mem_cons_self) _ gives_two) readsTwo defaultTwo
  simp only [read, at_one, at_two, Option.bind_eq_bind, Option.bind_some]
  rfl

theorem ofJson?_plt (texts : ¬ (Json.Value.object members).HasNameless)
    (given : config.NamesOf chosen "plt" members) :
    PltShape.ofJson? (.object members) = some (config.keep chosen).plt :=
  group_of_namesOf .stubStride .pointerWidth rfl texts given (Json.Value.word?_ofWord _)
    (Json.Value.word?_ofWord _) _ _ PltShape.mk

theorem ofJson?_maps (texts : ¬ (Json.Value.object members).HasNameless)
    (given : config.NamesOf chosen "maps" members) :
    RegionPolicy.ofJson? (.object members) = some (config.keep chosen).maps :=
  group_of_namesOf .executableOnly .coalesce rfl texts given (rfl : Json.Value.bool? _ = some _)
    (rfl : Json.Value.bool? _ = some _) _ _ RegionPolicy.mk

theorem ofJson?_io (texts : ¬ (Json.Value.object members).HasNameless)
    (given : config.NamesOf chosen "io" members) :
    Limits.ofJson? (.object members) = some (config.keep chosen).io :=
  group_of_namesOf .fetchBytes .tableBytes rfl texts given (Json.Value.word?_ofWord _)
    (Json.Value.word?_ofWord _) _ _ Limits.mk

/-- Names that are texts have to stand beside the groups and in them, and no further down. -/
theorem not_hasNameless_of_texts (texts : ∀ member ∈ members, member.1 ≠ none)
    (inside : ∀ member ∈ members, ¬ member.2.HasNameless) : ¬ HasNameless (.object members) := by
  rintro (⟨member, listed, nameless⟩ | ⟨setting, inner, gives, nameless⟩)
  · exact texts member listed nameless
  · exact inside _ gives nameless

theorem not_hasNameless_nil : ¬ (Json.Value.object []).HasNameless := by
  rintro ⟨member, listed, -⟩
  cases listed

/-- A group is read with its chosen settings; if it has none of them, it may be missing. -/
theorem fieldOr?_of_names {α : Type} {fields : List (String × Json.Value)}
    (found : ∀ name ∈ fieldNames, ∀ value?, Json.GivesOnly members name value? →
      fields.lookup name = value?)
    (given : config.Names chosen members) (texts : ¬ HasNameless (.object members))
    (setting : Setting) {read : Json.Value → Option α} {result default : α}
    (reads : ∀ {inner}, ¬ (Json.Value.object inner).HasNameless →
      config.NamesOf chosen setting.group inner → read (.object inner) = some result)
    (empty : read (.object []) = some default) :
    Json.fieldOr? fields setting.group default read = some result := by
  have known := group_mem_fieldNames setting
  rcases given _ known with ⟨inner, gives, inside⟩ | ⟨absent, unchosen⟩
  · rw [Json.fieldOr?, found _ known _ gives]
    exact reads (fun nameless => texts (.inr ⟨setting, _, gives.mem, nameless⟩)) inside
  · have nothing : config.NamesOf chosen setting.group [] := by
      intro other belongs
      rw [unchosen other belongs]
      rfl
    rw [Json.fieldOr?, found _ known _ absent, ← empty]
    exact reads not_hasNameless_nil nothing

theorem ofJson?_of_names (given : config.Names chosen members)
    (texts : ¬ HasNameless (.object members)) :
    ofJson? (.object members) = some (config.keep chosen) := by
  have once : ∀ group ∈ fieldNames, ∃ value?, Json.GivesOnly members group value? := by
    intro group known
    rcases given group known with ⟨inner, gives, -⟩ | ⟨absent, -⟩
    · exact ⟨_, gives⟩
    · exact ⟨_, absent⟩
  obtain ⟨fields, read, found⟩ :=
    Json.exists_fields?_of_once (fun nameless => texts (.inl nameless)) once
  have plt : Json.fieldOr? fields "plt" {} PltShape.ofJson? = some (config.keep chosen).plt :=
    fieldOr?_of_names found given texts .stubStride ofJson?_plt rfl
  have maps : Json.fieldOr? fields "maps" {} RegionPolicy.ofJson? =
      some (config.keep chosen).maps :=
    fieldOr?_of_names found given texts .executableOnly ofJson?_maps rfl
  have io : Json.fieldOr? fields "io" {} Limits.ofJson? = some (config.keep chosen).io :=
    fieldOr?_of_names found given texts .fetchBytes ofJson?_io rfl
  rw [ofJson?, read]
  simp only [Option.bind_eq_bind, Option.bind_some, plt, maps, io]
  rfl

end

/-! ### Members that spoil a document -/

theorem fieldOr?_eq_none {α : Type} {given : List (String × Json.Value)} {name : String}
    {value : Json.Value} {read : Json.Value → Option α} (found : given.lookup name = some value)
    (fails : read value = none) (default : α) : Json.fieldOr? given name default read = none := by
  rw [Json.fieldOr?, found]
  exact fails

/-- A group that cannot be read as a record spoils the configuration. -/
theorem ofJson?_of_group_fails {document inner : Json.Value} {setting : Setting}
    (gives : document.Gives fieldNames setting.group inner)
    (spoiled : ∀ names, setting.name ∈ names → inner.fields? names = none) :
    ofJson? document = none := by
  match read : document.fields? fieldNames with
  | none =>
    rw [ofJson?, read]
    rfl
  | some given =>
    have found := Json.lookup_of_gives (by decide) (group_mem_fieldNames setting) read gives
    rw [ofJson?, read]
    cases setting with
    | stubStride | pointerWidth =>
      have fails : PltShape.ofJson? inner = none := by
        rw [PltShape.ofJson?, spoiled _ (by decide)]
        rfl
      have spoils : Json.fieldOr? given "plt" {} PltShape.ofJson? = none :=
        fieldOr?_eq_none found fails _
      simp [spoils]
    | executableOnly | coalesce =>
      have fails : RegionPolicy.ofJson? inner = none := by
        rw [RegionPolicy.ofJson?, spoiled _ (by decide)]
        rfl
      have spoils : Json.fieldOr? given "maps" {} RegionPolicy.ofJson? = none :=
        fieldOr?_eq_none found fails _
      simp [spoils]
    | fetchBytes | tableBytes =>
      have fails : Limits.ofJson? inner = none := by
        rw [Limits.ofJson?, spoiled _ (by decide)]
        rfl
      have spoils : Json.fieldOr? given "io" {} Limits.ofJson? = none :=
        fieldOr?_eq_none found fails _
      simp [spoils]

theorem ofJson?_of_repeats {document : Json.Value} (again : Repeats document) :
    ofJson? document = none := by
  obtain ⟨setting, twice | ⟨inner, gives, twice⟩⟩ := again
  · rw [ofJson?, Json.fields?_of_repeats (group_mem_fieldNames setting) twice]
    rfl
  · exact ofJson?_of_group_fails gives fun names known => Json.fields?_of_repeats known twice

theorem ofJson?_of_hasNameless {document : Json.Value} (nameless : HasNameless document) :
    ofJson? document = none := by
  rcases nameless with nameless | ⟨setting, inner, gives, nameless⟩
  · rw [ofJson?, Json.fields?_of_hasNameless nameless]
    rfl
  · exact ofJson?_of_group_fails gives fun names _ => Json.fields?_of_hasNameless nameless names

/-! ### Texts -/

theorem ofText_of_some {document : Json.Value} {config : Config} {text : String}
    (spelled : Json.Spells document.tokens text.toList) (read : ofJson? document = some config) :
    ofText text = .ok config := by
  rw [ofText, Json.parse?_of_spells spelled, Option.bind_some, read]

theorem ofText_of_none {document : Json.Value} {text : String}
    (spelled : Json.Spells document.tokens text.toList) (fails : ofJson? document = none) :
    ∃ reason, ofText text = .error (.badConfig reason) := by
  rw [ofText, Json.parse?_of_spells spelled, Option.bind_some, fails]
  exact ⟨_, rfl⟩

/-! ### The text of a configuration -/

/-- The document that describes a configuration names every setting. -/
theorem exists_names_of_toJson (config : Config) :
    ∃ members, config.toJson = .object members ∧ config.Names (fun _ => true) members := by
  refine ⟨_, rfl, ?_⟩
  simp only [Names, fieldNames, List.forall_mem_cons]
  refine ⟨.inl ⟨_, rfl, ?_⟩, .inl ⟨_, rfl, ?_⟩, .inl ⟨_, rfl, ?_⟩, List.forall_mem_nil _⟩
  all_goals
    intro setting belongs
    cases setting <;> first | rfl | exact absurd belongs (by decide)

theorem not_hasNameless_toJson (config : Config) : ¬ HasNameless config.toJson := by
  apply not_hasNameless_of_texts
  · simp
  · simp [Json.Value.HasNameless]

theorem haveNumerals_toJson (config : Config) : Json.HaveNumerals config.toJson.tokens := by
  intro spelling listed
  have one_of : spelling = Nat.toDigits 10 config.plt.stubStride.toNat ∨
      spelling = Nat.toDigits 10 config.plt.pointerWidth.toNat ∨
      spelling = Nat.toDigits 10 config.io.fetchBytes.toNat ∨
      spelling = Nat.toDigits 10 config.io.tableBytes.toNat := by
    simpa [toJson, Json.Value.tokens, Json.Value.memberTokens, Json.Value.ofWord] using listed
  rcases one_of with rfl | rfl | rfl | rfl <;> exact Json.isNumeral_toDigits _

theorem spells_toText (config : Config) :
    Json.Spells config.toJson.tokens config.toText.toList := by
  rw [toText, String.toList_ofList]
  exact Json.spells_tokens config.toJson 0 config.haveNumerals_toJson

theorem ofText_toText (config : Config) : ofText config.toText = .ok config := by
  obtain ⟨members, same, names⟩ := config.exists_names_of_toJson
  have read : ofJson? config.toJson = some config := by
    have texts := config.not_hasNameless_toJson
    rw [same] at texts ⊢
    exact ofJson?_of_names names texts
  exact ofText_of_some config.spells_toText read

/-- A configuration is read back from the text written for it; a text that names some settings, in
any order, with any blanks and among any other members that have texts for names, changes these
settings only; and a text that gives a group or a setting more than once, or has a member without a
text for a name beside the groups or in one of them, is refused. -/
theorem ofText_overrides :
    (∀ config : Config, ofText config.toText = .ok config) ∧
      (∀ (config : Config) (chosen : Setting → Bool)
        (members : List (Option String × Json.Value)) (text : String),
        config.Names chosen members → ¬ HasNameless (.object members) →
        Json.Spells (Json.Value.object members).tokens text.toList →
        ofText text = .ok (config.keep chosen)) ∧
      ∀ (document : Json.Value) (text : String), Repeats document ∨ HasNameless document →
        Json.Spells document.tokens text.toList →
        ∃ reason, ofText text = .error (.badConfig reason) := by
  refine ⟨ofText_toText, ?_, ?_⟩
  · intro config chosen members text names texts spelled
    exact ofText_of_some spelled (ofJson?_of_names names texts)
  · rintro document text (again | nameless) spelled
    · exact ofText_of_none spelled (ofJson?_of_repeats again)
    · exact ofText_of_none spelled (ofJson?_of_hasNameless nameless)

/-- A document that names the width of a pointer and that regions are not joined, among members
without a meaning. -/
def partialMembers : List (Option String × Json.Value) := [
  (some "maps", .object [(some "plt", .null), (some "coalesce", .bool false)]),
  (some "comment", .array [.number ['1', '.', '5', 'e', '3'], .object [(none, .string none)]]),
  (some "plt", .object [
    (some "pointer_width", .ofWord 8), (some "comment", .string (some "a \"slot\""))])]

/-- A document that gives the width of a pointer twice. -/
def repeatedDocument : Json.Value :=
  .object [(some "plt", .object [
    (some "pointer_width", .ofWord 8), (some "pointer_width", .ofWord 8)])]

theorem ofText_partialMembers :
    let config : Config := { plt := { pointerWidth := 8 }, maps := { coalesce := false } }
    let chosen : Setting → Bool := fun setting => setting matches .pointerWidth | .coalesce
    let text := String.ofList ((Json.Value.object partialMembers).pretty 0)
    let repeated := String.ofList (repeatedDocument.pretty 0)
    config.Names chosen partialMembers ∧ ¬ HasNameless (.object partialMembers) ∧
      Json.Spells (Json.Value.object partialMembers).tokens text.toList ∧
      ofText text = .ok config ∧
      Repeats repeatedDocument ∧ Json.Spells repeatedDocument.tokens repeated.toList ∧
      ∃ reason, ofText repeated = .error (.badConfig reason) := by
  intro config chosen text repeated
  have names : config.Names chosen partialMembers := by
    simp only [Names, fieldNames, List.forall_mem_cons]
    refine ⟨.inl ⟨_, rfl, ?_⟩, .inl ⟨_, rfl, ?_⟩, .inr ⟨rfl, ?_⟩, List.forall_mem_nil _⟩
    all_goals
      intro setting belongs
      cases setting <;> first | rfl | exact absurd belongs (by decide)
  have texts : ¬ HasNameless (.object partialMembers) := by
    apply not_hasNameless_of_texts
    · simp [partialMembers]
    · simp [partialMembers, Json.Value.HasNameless]
  have spelled : Json.Spells (Json.Value.object partialMembers).tokens text.toList := by
    rw [String.toList_ofList]
    refine Json.spells_tokens _ 0 fun spelling listed => ?_
    have one_of : spelling = ['1', '.', '5', 'e', '3'] ∨ spelling = Nat.toDigits 10 8 := by
      simpa [partialMembers, Json.Value.tokens, Json.Value.memberTokens,
        Json.Value.itemTokens, Json.Value.ofWord] using listed
    rcases one_of with rfl | rfl
    · have run (digit : Char) (is_digit : digit.isDigit = true) : Json.IsDigitRun [digit] :=
        ⟨List.cons_ne_nil _ _, List.forall_mem_singleton.mpr is_digit⟩
      have whole : Json.IsWhole ['1'] := .positive rfl (by decide) (List.forall_mem_nil _)
      have fraction : Json.IsFraction ['.', '5'] := .digits (run '5' rfl)
      have power : Json.IsPower ['e', '3'] := .unsigned List.mem_cons_self (run '3' rfl)
      exact .positive whole fraction power
    · exact Json.isNumeral_toDigits 8
  have again : Repeats repeatedDocument :=
    ⟨.pointerWidth, .inr ⟨_, List.mem_cons_self, Nat.lt_succ_self 1⟩⟩
  have spelled_again : Json.Spells repeatedDocument.tokens repeated.toList := by
    rw [String.toList_ofList]
    refine Json.spells_tokens _ 0 fun spelling listed => ?_
    have only : spelling = Nat.toDigits 10 8 := by
      simpa [repeatedDocument, Json.Value.tokens, Json.Value.memberTokens,
        Json.Value.ofWord] using listed
    exact only ▸ Json.isNumeral_toDigits 8
  obtain ⟨-, overrides, refuses⟩ := ofText_overrides
  exact ⟨names, texts, spelled, overrides config chosen partialMembers text names texts spelled,
    again, spelled_again, refuses repeatedDocument repeated (.inl again) spelled_again⟩

/-- A document whose only member has half of a surrogate pair for a name. -/
def namelessMembers : List (Option String × Json.Value) := [(none, .number ['0'])]

/-- A member without a meaning is not passed over if its name spells no text: the document names no
setting, and is no configuration. -/
theorem namelessMembers_refused :
    let text := String.ofList ((Json.Value.object namelessMembers).pretty 0)
    ({} : Config).Names (fun _ => false) namelessMembers ∧
      Json.Spells (Json.Value.object namelessMembers).tokens text.toList ∧
      ofText text ≠ .ok (({} : Config).keep fun _ => false) := by
  intro text
  have names : ({} : Config).Names (fun _ => false) namelessMembers := by
    intro group known
    exact .inr ⟨rfl, fun _ _ => rfl⟩
  have spelled : Json.Spells (Json.Value.object namelessMembers).tokens text.toList := by
    rw [String.toList_ofList]
    refine Json.spells_tokens _ 0 fun spelling listed => ?_
    have only : spelling = ['0'] := by
      simpa [namelessMembers, Json.Value.tokens, Json.Value.memberTokens] using listed
    rw [only]
    exact .positive .zero .absent .absent
  have nameless : HasNameless (.object namelessMembers) := .inl ⟨_, List.mem_cons_self, rfl⟩
  obtain ⟨reason, refused⟩ := ofText_of_none spelled (ofJson?_of_hasNameless nameless)
  refine ⟨names, spelled, ?_⟩
  rw [refused]
  exact fun same => nomatch same

end Config
end ElfLens
