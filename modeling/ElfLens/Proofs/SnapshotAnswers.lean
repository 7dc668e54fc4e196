import ElfLens.Proofs.PositionIndependence
import ElfLens.Proofs.SymbolSearch
import ElfLens.Snapshot

set_option autoImplicit false

namespace ElfLens

namespace Image

/-- The image has a dynamic symbol behind the reserved first one at the index, and it carries the
name. -/
def Lists (image : Image) (text : String) (index : Nat) (symbol : Symbol) : Prop :=
  ∃ linkage, image.linkage? = some linkage ∧ 0 < index ∧ index < linkage.symbols.count ∧
    linkage.symbols.symbol? index = some symbol ∧
    linkage.symbols.carries (Bytes.ofText text) index

/-- Every dynamic symbol behind the reserved first one is on the chain that its own name starts. -/
def IsIndexed (image : Image) : Prop :=
  ∀ linkage, image.linkage? = some linkage → ∀ index name, 0 < index →
    index < linkage.symbols.count → linkage.symbols.carries name index →
    linkage.symbols.Reaches name index

/-- No two of the dynamic symbols carry the name. -/
def ListsOnce (image : Image) (text : String) : Prop :=
  ∀ i j a b, image.Lists text i a → image.Lists text j b → i = j

/-- What an image adds to the definitions and to the uses of a name. -/
structure Answers (image : Image) (text : String) (definitions uses : List SymbolView) : Prop where
  single : definitions.length + uses.length ≤ 1
  missing : image.findDynamic? text = none → definitions = [] ∧ uses = []
  hit : ∀ view, image.findDynamic? text = some view → view.image = image ∧
    (definitions = [view] ↔ 0 < view.symbol.sectionIndex ∧ view.symbol.sectionIndex < 0xff00) ∧
    (uses = [view] ↔ view.symbol.sectionIndex = 0) ∧
    (definitions = [] ∧ uses = [] ↔ 0xff00 ≤ view.symbol.sectionIndex)
  listed : image.IsIndexed → image.ListsOnce text →
    (definitions ≠ [] ↔ ∃ index symbol, image.Lists text index symbol ∧ symbol.isDefined) ∧
    (uses ≠ [] ↔ ∃ index symbol, image.Lists text index symbol ∧ symbol.isUndefined) ∧
    ∀ index symbol, image.Lists text index symbol →
      definitions ++ uses ⊆ [image.dynamicView symbol]

theorem findDynamic?_eq_some_iff {image : Image} {text : String} {view : SymbolView} :
    image.findDynamic? text = some view ↔
      ∃ linkage symbol, image.linkage? = some linkage ∧ linkage.symbols.find? text = some symbol ∧
        view = image.dynamicView symbol := by
  simp only [findDynamic?, bind, Option.bind_eq_some_iff, Option.map_eq_some_iff]
  constructor
  · rintro ⟨linkage, linked, symbol, found, rfl⟩
    exact ⟨linkage, symbol, linked, found, rfl⟩
  · rintro ⟨linkage, symbol, linked, found, rfl⟩
    exact ⟨linkage, linked, symbol, found, rfl⟩

theorem image_of_findDynamic? {image : Image} {text : String} {view : SymbolView}
    (found : image.findDynamic? text = some view) : view.image = image := by
  obtain ⟨linkage, symbol, -, -, rfl⟩ := findDynamic?_eq_some_iff.mp found
  rfl

/-- With every symbol on its chain and one symbol of a name, the search finds that one. -/
theorem findDynamic?_iff_lists {image : Image} {text : String} (indexed : image.IsIndexed)
    (once : image.ListsOnce text) (symbol : Symbol) :
    image.findDynamic? text = some (image.dynamicView symbol) ↔
      ∃ index, image.Lists text index symbol := by
  rw [findDynamic?_eq_some_iff]
  constructor
  · rintro ⟨linkage, other, linked, found, same⟩
    obtain rfl : symbol = other := congrArg SymbolView.symbol same
    obtain ⟨reached, carried, stands⟩ := DynamicSymbols.of_find?_eq_some found
    exact ⟨symbol.index, linkage, linked, reached.bounds.1, reached.bounds.2, stands, carried⟩
  · rintro ⟨index, linkage, linked, behind, inside, stands, carried⟩
    have reached := indexed linkage linked index _ behind inside carried
    obtain ⟨other, found⟩ := DynamicSymbols.exists_find?_of_reaches reached carried
    obtain ⟨also, carried', stands'⟩ := DynamicSymbols.of_find?_eq_some found
    have place : index = other.index := once index other.index symbol other
      ⟨linkage, linked, behind, inside, stands, carried⟩
      ⟨linkage, linked, also.bounds.1, also.bounds.2, stands', carried'⟩
    rw [place, stands'] at stands
    cases stands
    exact ⟨linkage, symbol, linked, found, rfl⟩

/-- What the search finds has a property exactly if a symbol of the name has it. -/
theorem filter_findDynamic?_ne_nil_iff {image : Image} {text : String} (indexed : image.IsIndexed)
    (once : image.ListsOnce text) (wanted : Symbol → Bool) :
    ((image.findDynamic? text).filter (wanted ·.symbol)).toList ≠ [] ↔
      ∃ index symbol, image.Lists text index symbol ∧ wanted symbol := by
  rw [Ne, Option.toList_eq_nil_iff, ← Ne, Option.ne_none_iff_exists']
  simp only [Option.filter_eq_some_iff]
  constructor
  · rintro ⟨view, found, holds⟩
    obtain ⟨-, symbol, -, -, rfl⟩ := findDynamic?_eq_some_iff.mp found
    obtain ⟨index, lists⟩ := (findDynamic?_iff_lists indexed once symbol).mp found
    exact ⟨index, symbol, lists, holds⟩
  · rintro ⟨index, symbol, lists, holds⟩
    exact ⟨_, (findDynamic?_iff_lists indexed once symbol).mpr ⟨index, lists⟩, holds⟩

end Image

namespace Snapshot

theorem symbols_cons (image : Image) (rest : List Image) (text : String) :
    (mk (image :: rest)).symbols text =
      (image.findDynamic? text).toList ++ (mk rest).symbols text := by
  cases found : image.findDynamic? text with
  | none => exact List.filterMap_cons_none found
  | some view => exact List.filterMap_cons_some found

theorem symbols_append (xs ys : List Image) (text : String) :
    (mk (xs ++ ys)).symbols text = (mk xs).symbols text ++ (mk ys).symbols text :=
  List.filterMap_append

/-- The symbols of a name stand in the order of the images that they are found in. -/
theorem sublist_of_symbols (images : List Image) (text : String) :
    List.Sublist (((mk images).symbols text).map (·.image)) images := by
  induction images with
  | nil => exact .slnil
  | cons image rest ih =>
      rw [symbols_cons]
      cases found : image.findDynamic? text with
      | none => exact ih.cons image
      | some view =>
          have place := Image.image_of_findDynamic? found
          change List.Sublist (view.image :: ((mk rest).symbols text).map (·.image)) _
          rw [place]
          exact ih.cons_cons image

theorem definitions_singleton (image : Image) (text : String) :
    (mk [image]).definitions text =
      ((image.findDynamic? text).filter (·.symbol.isDefined)).toList := by
  rw [definitions, symbols_cons, Option.toList_filter]
  exact congrArg _ (List.append_nil _)

theorem uses_singleton (image : Image) (text : String) :
    (mk [image]).uses text =
      ((image.findDynamic? text).filter (·.symbol.isUndefined)).toList := by
  rw [uses, symbols_cons, Option.toList_filter]
  exact congrArg _ (List.append_nil _)

/-- What one image adds to the definitions and to the uses of a name. -/
theorem answers_singleton (image : Image) (text : String) :
    image.Answers text ((mk [image]).definitions text) ((mk [image]).uses text) := by
  rw [definitions_singleton, uses_singleton]
  constructor
  case single =>
    cases defined : (image.findDynamic? text).filter (·.symbol.isDefined) with
    | none => exact (Nat.zero_add _).trans_le Option.length_toList_le
    | some view =>
        obtain ⟨found, isDefined⟩ := Option.filter_eq_some_iff.mp defined
        have unused : (image.findDynamic? text).filter (·.symbol.isUndefined) = none := by
          rw [found, Option.filter_some_neg]
          exact eq_false_of_ne_true (Symbol.not_isUndefined_of_isDefined isDefined)
        rw [unused]
        exact Nat.le_refl 1
  case missing =>
    intro absent
    rw [absent]
    exact ⟨rfl, rfl⟩
  case hit =>
    intro view found
    rw [← Symbol.isDefined_iff, ← Symbol.isUndefined_iff,
      ← Symbol.not_isDefined_and_not_isUndefined_iff]
    simp only [Option.toList_eq_singleton_iff, Option.toList_eq_nil_iff, Option.filter_eq_some_iff,
      Option.filter_eq_none_iff, found, true_and, Option.some.injEq, forall_eq']
    exact ⟨Image.image_of_findDynamic? found, trivial⟩
  case listed =>
    intro indexed once
    refine ⟨Image.filter_findDynamic?_ne_nil_iff indexed once (·.isDefined),
      Image.filter_findDynamic?_ne_nil_iff indexed once (·.isUndefined), ?_⟩
    intro index symbol lists view listed
    have found := (Image.findDynamic?_iff_lists indexed once symbol).mpr ⟨index, lists⟩
    rw [Option.toList_filter, Option.toList_filter, found] at listed
    rcases List.mem_append.mp listed with defined | used
    · exact List.mem_of_mem_filter defined
    · exact List.mem_of_mem_filter used

/-- The answers to what defines a name and what uses it are put together image by image and keep the
order of the images. An image adds at most one symbol to one of them, told apart by the section that
the symbol is defined in, and nothing if it has no such symbol. -/
theorem definitions_and_uses (text : String) :
    (∀ xs ys : List Image,
      (mk (xs ++ ys)).definitions text = (mk xs).definitions text ++ (mk ys).definitions text ∧
      (mk (xs ++ ys)).uses text = (mk xs).uses text ++ (mk ys).uses text) ∧
    (∀ snapshot : Snapshot,
      List.Sublist ((snapshot.definitions text).map (·.image)) snapshot.images ∧
      List.Sublist ((snapshot.uses text).map (·.image)) snapshot.images ∧
      List.Disjoint (snapshot.definitions text) (snapshot.uses text)) ∧
    ∀ image : Image,
      image.Answers text ((mk [image]).definitions text) ((mk [image]).uses text) := by
  refine ⟨?_, ?_, fun image => answers_singleton image text⟩
  · intro xs ys
    unfold definitions uses
    rw [symbols_append, List.filter_append, List.filter_append]
    exact ⟨rfl, rfl⟩
  · intro snapshot
    have order := sublist_of_symbols snapshot.images text
    refine ⟨(List.filter_sublist.map _).trans order, (List.filter_sublist.map _).trans order, ?_⟩
    intro view defined used
    exact Symbol.not_isUndefined_of_isDefined (List.mem_filter.mp defined).2
      (List.mem_filter.mp used).2

/-- The chain of its own name leads to the symbol at an index after so many steps. -/
def Leads (tables : DynamicSymbols) (index steps : Nat) : Prop :=
  ∃ hash ∈ tables.hash?, ∃ name ∈ tables.nameAt? index, ∃ link ∈ hash.onChain? name steps,
    link.toNat = index

instance (tables : DynamicSymbols) (index steps : Nat) : Decidable (Leads tables index steps) :=
  inferInstanceAs (Decidable (∃ hash ∈ _, ∃ name ∈ _, ∃ link ∈ _, _ = index))

theorem Leads.reaches {tables : DynamicSymbols} {index steps : Nat} {name : Bytes}
    (leads : Leads tables index steps) (carried : tables.carries name index) :
    tables.Reaches name index := by
  obtain ⟨hash, hashed, own, named, link, walked, place⟩ := leads
  obtain rfl : own = name := Option.some.inj (named.symm.trans (of_decide_eq_true carried))
  exact ⟨hash, link, steps, hashed, walked, place⟩

theorem isIndexed_of_leads {image : Image} {linkage : Linkage}
    (linked : image.linkage? = some linkage)
    (all : ∀ index < linkage.symbols.count, 0 < index →
      ∃ steps < linkage.symbols.count, Leads linkage.symbols index steps) :
    image.IsIndexed := by
  intro other same index name behind inside carried
  obtain rfl := Option.some.inj (linked.symm.trans same)
  obtain ⟨steps, -, leads⟩ := all index inside behind
  exact leads.reaches carried

theorem listsOnce_of_carries {image : Image} {linkage : Linkage} {text : String}
    (linked : image.linkage? = some linkage) (place : Nat)
    (only : ∀ index < linkage.symbols.count, linkage.symbols.carries (Bytes.ofText text) index →
      index = place) :
    image.ListsOnce text := by
  have placed : ∀ index symbol, image.Lists text index symbol → index = place := by
    rintro index symbol ⟨other, same, -, inside, -, carried⟩
    obtain rfl := Option.some.inj (linked.symm.trans same)
    exact only index inside carried
  intro i j a b first second
  exact (placed i a first).trans (placed j b second).symm

/-- Of two images that stand side by side, one defines a name and the other one uses another. -/
theorem definition_beside_use :
    ∃ image ∈ (Image.ofBytes (fun _ => none) {} Image.oneSymbolObject 0x1000 none).toOption,
      let user := { image with linkage? := some Linkage.twoOnCircle }
      (mk [image]).definitions "ab" ≠ [] ∧ (mk [image]).uses "ab" = [] ∧
        (mk [user]).uses "b" ≠ [] ∧ (mk [user]).definitions "b" = [] := by
  have loading : ∃ image ∈ (Image.ofBytes (fun _ => none) {} Image.oneSymbolObject 0x1000
      none).toOption, ∃ linkage ∈ image.linkage?,
      (∀ index < linkage.symbols.count, 0 < index →
        ∃ steps < linkage.symbols.count, Leads linkage.symbols index steps) ∧
      (∀ index < linkage.symbols.count, linkage.symbols.carries (Bytes.ofText "ab") index →
        index = 1) ∧
      1 < linkage.symbols.count ∧ linkage.symbols.carries (Bytes.ofText "ab") 1 ∧
      ∃ symbol ∈ linkage.symbols.symbol? 1, symbol.isDefined := by decide +kernel
  obtain ⟨image, loaded, linkage, linked, leads, only, inside, carried, symbol, stands, defined⟩ :=
    loading
  obtain ⟨-, -, answers⟩ := definitions_and_uses "ab"
  have defines := ((answers image).listed (isIndexed_of_leads linked leads)
    (listsOnce_of_carries linked 1 only)).1.mpr
      ⟨1, symbol, ⟨linkage, linked, Nat.one_pos, inside, stands, carried⟩, defined⟩
  have circle : ∃ symbol ∈ Linkage.twoOnCircle.symbols.symbol? 2, symbol.isUndefined := by
    decide +kernel
  obtain ⟨used, stands', undefined⟩ := circle
  obtain ⟨-, -, answers'⟩ := definitions_and_uses "b"
  let user := { image with linkage? := some Linkage.twoOnCircle }
  have linked' : user.linkage? = some Linkage.twoOnCircle := rfl
  have uses := ((answers' user).listed (isIndexed_of_leads linked' (by decide +kernel))
    (listsOnce_of_carries linked' 2 (by decide +kernel))).2.1.mpr
      ⟨2, used, ⟨_, linked', Nat.two_pos, by decide +kernel, stands', by decide +kernel⟩, undefined⟩
  refine ⟨image, loaded, defines, ?_, uses, ?_⟩
  · have single := (answers image).single
    have first := List.length_pos_iff.mpr defines
    exact List.eq_nil_of_length_eq_zero (by omega)
  · change (mk [user]).definitions "b" = []
    have single := (answers' user).single
    have first := List.length_pos_iff.mpr uses
    exact List.eq_nil_of_length_eq_zero (by omega)

end Snapshot

end ElfLens
