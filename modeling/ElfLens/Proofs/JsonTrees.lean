import ElfLens.Json.Parser
import ElfLens.Json.Printer
import ElfLens.Proofs.JsonWords

set_option autoImplicit false

namespace ElfLens.Json

/-! ### The words of a document need no blanks -/

namespace Parted

theorem cons {token : Token} {tokens : List Token} (closed : token.isOpenEnded = false)
    (parted : Parted tokens) : Parted (token :: tokens) :=
  List.isChain_cons.mpr ⟨fun _ _ open_ended => absurd open_ended (by simp [closed]), parted⟩

theorem append {front back : List Token} (one : Parted front) (other : Parted back)
    (closed : ∀ token ∈ back.head?, token.isOpenEnded = false) : Parted (front ++ back) :=
  List.isChain_append.mpr ⟨one, other, fun _ _ next leads _ => closed next leads⟩

end Parted

mutual

theorem parted_tokens (value : Value) : Parted value.tokens := by
  match value with
  | .null | .bool _ | .number _ | .string _ => exact List.isChain_singleton _
  | .array items =>
    exact .cons rfl (.append (parted_itemTokens items) (List.isChain_singleton _) (by decide))
  | .object members =>
    exact .cons rfl (.append (parted_memberTokens members) (List.isChain_singleton _) (by decide))

theorem parted_itemTokens (items : List Value) : Parted (Value.itemTokens items) := by
  match items with
  | [] => exact List.isChain_nil
  | [item] => exact parted_tokens item
  | item :: next :: rest =>
    refine .append (parted_tokens item) (.cons rfl (parted_itemTokens (next :: rest))) ?_
    simp [Token.isOpenEnded]

theorem parted_memberTokens (members : List (Option String × Value)) :
    Parted (Value.memberTokens members) := by
  match members with
  | [] => exact List.isChain_nil
  | [(key?, value)] => exact .cons rfl (.cons rfl (parted_tokens value))
  | (key?, value) :: next :: rest =>
    refine .append (.cons rfl (.cons rfl (parted_tokens value)))
      (.cons rfl (parted_memberTokens (next :: rest))) ?_
    simp [Token.isOpenEnded]

end

/-! ### Documents -/

namespace Progress

def AwaitsValue (progress : Progress) : Prop :=
  progress.expected = .value ∨ progress.expected = .firstItem

def AwaitsKey (progress : Progress) : Prop :=
  progress.expected = .key ∨ progress.expected = .firstKey

theorem take?_of_awaitsValue {progress : Progress} (awaits : progress.AwaitsValue) {token : Token}
    (no_close : takeClose token progress.frames = none) :
    progress.take? token = takeValue token progress.frames := by
  rcases awaits with state | state
  · simp only [take?, state]
  · simp only [take?, state, no_close]
    rfl

theorem take?_of_awaitsKey {progress : Progress} (awaits : progress.AwaitsKey)
    {members : List (Option String × Value)} {outer : List Frame}
    (frames : progress.frames = .object members :: outer) (key? : Option String) :
    progress.take? (.string key?) = some ⟨.colon, .member members key? :: outer, none⟩ := by
  rcases awaits with state | state
  · simp only [take?, state, frames, takeKey]
  · simp only [take?, state, frames, takeKey, takeClose]
    rfl

end Progress

open Progress

mutual

/-- The words of a value, taken where one may stand, put it where it belongs. -/
theorem foldlM_tokens (value : Value) {progress : Progress} (awaits : progress.AwaitsValue) :
    value.tokens.foldlM take? progress = some (deliver value progress.frames) := by
  match value with
  | .null | .bool _ | .number _ | .string _ =>
    rw [Value.tokens, List.foldlM_cons, take?_of_awaitsValue awaits rfl]
    rfl
  | .array items =>
    rw [Value.tokens, List.cons_append, List.foldlM_cons, take?_of_awaitsValue awaits rfl]
    have opened : AwaitsValue ⟨.firstItem, .array [] :: progress.frames, none⟩ := .inr rfl
    match items with
    | [] => rfl
    | item :: rest =>
      have inside := foldlM_itemTokens (item :: rest) (List.cons_ne_nil _ _) opened rfl
      rw [takeValue, Option.bind_eq_bind, Option.bind_some, List.foldlM_append, inside]
      simp [take?, takeClose]
  | .object members =>
    rw [Value.tokens, List.cons_append, List.foldlM_cons, take?_of_awaitsValue awaits rfl]
    have opened : AwaitsKey ⟨.firstKey, .object [] :: progress.frames, none⟩ := .inr rfl
    match members with
    | [] => rfl
    | member :: rest =>
      have inside := foldlM_memberTokens (member :: rest) (List.cons_ne_nil _ _) opened rfl
      rw [takeValue, Option.bind_eq_bind, Option.bind_some, List.foldlM_append, inside]
      simp [take?, takeClose]

/-- The words of the items of an array add them to those that it has. -/
theorem foldlM_itemTokens (items : List Value) (nonempty : items ≠ []) {progress : Progress}
    (awaits : progress.AwaitsValue) {before : List Value} {outer : List Frame}
    (frames : progress.frames = .array before :: outer) :
    (Value.itemTokens items).foldlM take? progress =
      some ⟨.separator, .array (items.reverse ++ before) :: outer, none⟩ := by
  match items with
  | [] => contradiction
  | [item] =>
    rw [Value.itemTokens, foldlM_tokens item awaits, frames]
    rfl
  | item :: next :: rest =>
    have separated : AwaitsValue ⟨.value, .array (item :: before) :: outer, none⟩ := .inl rfl
    have after := foldlM_itemTokens (next :: rest) (List.cons_ne_nil _ _) separated rfl
    rw [Value.itemTokens, List.foldlM_append, foldlM_tokens item awaits, frames,
      Option.bind_eq_bind, Option.bind_some, List.foldlM_cons]
    · simp [take?, deliver, after]
    · exact List.cons_ne_nil _ _

/-- The words of the members of an object add them to those that it has. -/
theorem foldlM_memberTokens (members : List (Option String × Value)) (nonempty : members ≠ [])
    {progress : Progress} (awaits : progress.AwaitsKey) {before : List (Option String × Value)}
    {outer : List Frame} (frames : progress.frames = .object before :: outer) :
    (Value.memberTokens members).foldlM take? progress =
      some ⟨.separator, .object (members.reverse ++ before) :: outer, none⟩ := by
  match members with
  | [] => contradiction
  | [(key?, value)] =>
    have ready : AwaitsValue ⟨.value, .member before key? :: outer, none⟩ := .inl rfl
    rw [Value.memberTokens, List.foldlM_cons, take?_of_awaitsKey awaits frames]
    simp [take?, foldlM_tokens value ready, deliver]
  | (key?, value) :: next :: rest =>
    have ready : AwaitsValue ⟨.value, .member before key? :: outer, none⟩ := .inl rfl
    have separated : AwaitsKey ⟨.key, .object ((key?, value) :: before) :: outer, none⟩ := .inl rfl
    have after := foldlM_memberTokens (next :: rest) (List.cons_ne_nil _ _) separated rfl
    rw [Value.memberTokens, List.cons_append, List.foldlM_cons, take?_of_awaitsKey awaits frames]
    · simp [take?, foldlM_tokens value ready, deliver, after]
    · exact List.cons_ne_nil _ _

end

theorem ofTokens?_tokens (value : Value) : ofTokens? value.tokens = some value := by
  rw [ofTokens?, foldlM_tokens value (.inl rfl)]
  rfl

/-- A text that spells the words of a document is read as that document. -/
theorem parse?_of_spells {value : Value} {text : String}
    (spelled : Spells value.tokens text.toList) : parse? text = some value := by
  rw [parse?, tokens?_of_spells spelled (parted_tokens value), Option.bind_some,
    ofTokens?_tokens]

end ElfLens.Json
