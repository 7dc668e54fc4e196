import ElfLens.Json.Value
import Mathlib.Data.List.Basic
import Mathlib.Data.Set.List

set_option autoImplicit false

namespace ElfLens.Json

/-- The members of an object that are called by a name are these: one, or none. -/
def GivesOnly (members : List (Option String × Value)) (name : String) (value? : Option Value) :
    Prop :=
  members.filter (·.1 = some name) = (value?.map (some name, ·)).toList

/-- A member whose name is a text. -/
def keyed (member : String × Value) : Option String × Value := (some member.1, member.2)

namespace Value

/-- The document is an object that gives a member more than once. -/
def Repeats (document : Value) (name : String) : Prop :=
  match document with
  | object members => 1 < (members.filter (·.1 = some name)).length
  | _ => False

/-- The document is an object with a member whose name spells no text. -/
def HasNameless (document : Value) : Prop :=
  match document with
  | object members => ∃ member ∈ members, member.1 = none
  | _ => False

/-- The document gives a value for a field of a record: by its name or by its position. -/
def Gives (document : Value) (names : List String) (name : String) (value : Value) : Prop :=
  match document with
  | object members => (some name, value) ∈ members
  | array items => (name, value) ∈ names.zip items
  | _ => False

end Value

theorem mapM_key_eq_some_iff (members : List (Option String × Value))
    (all : List (String × Value)) :
    members.mapM (fun (key?, value) => key?.map (·, value)) = some all ↔
      members = all.map keyed := by
  induction members generalizing all with
  | nil => cases all <;> simp
  | cons member members ih =>
    obtain ⟨key?, value⟩ := member
    rw [List.mapM_cons]
    simp only [Option.bind_eq_bind, Option.bind_eq_some_iff, Option.pure_def, Option.some.injEq,
      ih, Option.map_eq_some_iff]
    constructor
    · rintro ⟨-, ⟨name, rfl, rfl⟩, rest, rfl, rfl⟩
      rfl
    · intro same
      cases all with
      | nil => cases same
      | cons first all =>
        obtain ⟨one, rest⟩ := List.cons.inj same
        obtain ⟨rfl, rfl⟩ := Prod.mk.inj one
        exact ⟨first, ⟨first.1, rfl, rfl⟩, all, rest, rfl⟩

/-- An object gives a record its fields if every member has a name and no field is given twice. -/
theorem fields?_object_eq_some_iff (names : List String) (members : List (Option String × Value))
    (given : List (String × Value)) :
    (Value.object members).fields? names = some given ↔
      ∃ all : List (String × Value), members = all.map keyed ∧
        all.filter (names.contains ·.1) = given ∧ (given.map (·.1)).Nodup := by
  simp only [Value.fields?, Option.bind_eq_bind, Option.bind_eq_some_iff, mapM_key_eq_some_iff]
  refine exists_congr fun all => and_congr_right fun _ => ?_
  rw [Option.ite_none_right_eq_some, Option.some.injEq]
  constructor
  · rintro ⟨nodup, rfl⟩
    exact ⟨rfl, nodup⟩
  · rintro ⟨rfl, nodup⟩
    exact ⟨nodup, rfl⟩

theorem lookup_eq_head?_filter (given : List (String × Value)) (name : String) :
    given.lookup name = (given.filter (·.1 = name)).head?.map (·.2) := by
  induction given with
  | nil => rfl
  | cons first given ih =>
    obtain ⟨other, value⟩ := first
    by_cases same : other = name
    · subst same
      simp
    · have differ : (name == other) = false := beq_false_of_ne (Ne.symm same)
      simp only [List.lookup_cons, differ, ih, List.filter_cons, same, decide_false,
        Bool.false_eq_true, ↓reduceIte]

theorem filter_known {names : List String} {name : String} (known : name ∈ names)
    (members : List (String × Value)) :
    (members.filter (names.contains ·.1)).filter (·.1 = name) = members.filter (·.1 = name) := by
  rw [List.filter_filter]
  refine List.filter_congr fun member _ => ?_
  by_cases same : member.1 = name
  · simp [same, known]
  · simp [same]

theorem nodup_keys_iff (given : List (String × Value)) :
    (given.map (·.1)).Nodup ↔ ∀ name, (given.filter (·.1 = name)).length ≤ 1 := by
  rw [List.nodup_iff_count]
  refine forall_congr' fun name => ?_
  rw [List.count, List.countP_map, List.countP_eq_length_filter]
  rfl

theorem lookup_of_mem {given : List (String × Value)} (nodup : (given.map (·.1)).Nodup)
    {name : String} {value : Value} (listed : (name, value) ∈ given) :
    given.lookup name = some value := by
  induction given with
  | nil => cases listed
  | cons first given ih =>
    rw [List.map_cons, List.nodup_cons] at nodup
    rcases List.mem_cons.mp listed with rfl | later
    · exact List.lookup_cons_self
    · have differ : name ≠ first.1 := fun same => nodup.1 (List.mem_map.mpr ⟨_, later, same⟩)
      rw [List.lookup_cons, beq_false_of_ne differ]
      exact ih nodup.2 later

theorem sublist_keys_zip (names : List String) (items : List Value) :
    ((names.zip items).map (·.1)).Sublist names := by
  induction names generalizing items with
  | nil => exact List.Sublist.refl _
  | cons name names ih =>
    cases items with
    | nil => exact List.nil_sublist _
    | cons item items => exact (ih items).cons_cons name

theorem keyed_injective : Function.Injective keyed := by
  rintro ⟨name, value⟩ ⟨other, also⟩ same
  obtain ⟨⟨⟩, rfl⟩ := Prod.mk.inj same
  rfl

theorem exists_named {members : List (Option String × Value)}
    (texts : ¬ (Value.object members).HasNameless) :
    ∃ all : List (String × Value), members = all.map keyed := by
  have keys : ∀ member ∈ members, member ∈ Set.range keyed := by
    rintro ⟨key?, value⟩ listed
    cases key? with
    | none => exact absurd ⟨_, listed, rfl⟩ texts
    | some name => exact ⟨(name, value), rfl⟩
  have listed : members ∈ Set.range (List.map keyed) := by
    rw [Set.range_list_map]
    exact keys
  obtain ⟨all, same⟩ := listed
  exact ⟨all, same.symm⟩

theorem filter_keyed (members : List (String × Value)) (name : String) :
    (members.map keyed).filter (·.1 = some name) =
      (members.filter (·.1 = name)).map keyed := by
  rw [List.filter_map]
  congr 2
  funext member
  simp [keyed]

theorem GivesOnly.mem {members : List (Option String × Value)} {name : String} {value : Value}
    (gives : GivesOnly members name (some value)) : (some name, value) ∈ members := by
  apply List.mem_of_mem_filter
  rw [gives]
  exact List.mem_cons_self

theorem GivesOnly.filter_eq {all : List (String × Value)} {name : String} {value? : Option Value}
    (gives : GivesOnly (all.map keyed) name value?) :
    all.filter (·.1 = name) = (value?.map (name, ·)).toList := by
  apply keyed_injective.list_map
  rw [← filter_keyed, gives]
  cases value? <;> rfl

/-- An object whose members have names, and that gives each field of a record once at most, gives
the record these fields. -/
theorem exists_fields?_of_once {names : List String} {members : List (Option String × Value)}
    (texts : ¬ (Value.object members).HasNameless)
    (once : ∀ name ∈ names, ∃ value?, GivesOnly members name value?) :
    ∃ given, (Value.object members).fields? names = some given ∧
      ∀ name ∈ names, ∀ value?, GivesOnly members name value? → given.lookup name = value? := by
  obtain ⟨all, rfl⟩ := exists_named texts
  refine ⟨all.filter (names.contains ·.1), ?_, ?_⟩
  · refine (fields?_object_eq_some_iff _ _ _).mpr ⟨all, rfl, rfl, ?_⟩
    refine (nodup_keys_iff _).mpr fun name => ?_
    by_cases known : name ∈ names
    · obtain ⟨value?, gives⟩ := once name known
      rw [filter_known known, gives.filter_eq]
      cases value? <;> simp
    · have none_left : (all.filter (names.contains ·.1)).filter (·.1 = name) = [] := by
        rw [List.filter_eq_nil_iff]
        intro member listed same
        rw [← of_decide_eq_true same] at known
        exact known (List.contains_iff_mem.mp (List.mem_filter.mp listed).2)
      rw [none_left]
      exact Nat.zero_le 1
  · intro name known value? gives
    rw [lookup_eq_head?_filter, filter_known known, gives.filter_eq]
    cases value? <;> rfl

/-- A record takes no member whose name spells no text, not even to pass it over. -/
theorem fields?_of_hasNameless {document : Value} (nameless : document.HasNameless)
    (names : List String) : document.fields? names = none := by
  cases document with
  | object members =>
    refine Option.eq_none_iff_forall_ne_some.mpr fun given read => ?_
    obtain ⟨all, rfl, -, -⟩ := (fields?_object_eq_some_iff _ _ _).mp read
    obtain ⟨member, listed, none_there⟩ := nameless
    obtain ⟨pair, -, rfl⟩ := List.mem_map.mp listed
    cases none_there
  | null | bool | number | string | array => exact False.elim nameless

/-- No record may be given a field twice. -/
theorem fields?_of_repeats {names : List String} {name : String} (known : name ∈ names)
    {document : Value} (again : document.Repeats name) : document.fields? names = none := by
  cases document with
  | object members =>
    refine Option.eq_none_iff_forall_ne_some.mpr fun given read => ?_
    obtain ⟨all, rfl, rfl, nodup⟩ := (fields?_object_eq_some_iff _ _ _).mp read
    have single := (nodup_keys_iff _).mp nodup name
    have several : 1 < ((all.map keyed).filter (·.1 = some name)).length := again
    rw [filter_known known] at single
    rw [filter_keyed, List.length_map] at several
    omega
  | null | bool | number | string | array => exact False.elim again

/-- What a record is given for a field is found by its name. -/
theorem lookup_of_gives {names : List String} {name : String} {value document : Value}
    {given : List (String × Value)} (nodup : names.Nodup) (known : name ∈ names)
    (read : document.fields? names = some given) (gives : document.Gives names name value) :
    given.lookup name = some value := by
  cases document with
  | object members =>
    obtain ⟨all, rfl, rfl, distinct⟩ := (fields?_object_eq_some_iff _ _ _).mp read
    have inside : (name, value) ∈ all := (List.mem_map_of_injective keyed_injective).mp gives
    exact lookup_of_mem distinct
      (List.mem_filter.mpr ⟨inside, List.contains_iff_mem.mpr known⟩)
  | array items =>
    rw [Value.fields?, Option.ite_none_right_eq_some, Option.some.injEq] at read
    rw [← read.2]
    exact lookup_of_mem (nodup.sublist (sublist_keys_zip names items)) gives
  | null | bool | number | string => exact False.elim gives

end ElfLens.Json
