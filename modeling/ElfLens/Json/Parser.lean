import ElfLens.Json.Token
import ElfLens.Json.Value
/-!
The tree that the words of a JSON text spell. Words are taken one at a time, and what is still open
is kept on a stack, so the depth of a document is not limited.
-/

set_option autoImplicit false

namespace ElfLens.Json

/-- A container that is not closed yet, with its latest item first. -/
inductive Frame where
  | array (items : List Value)
  /-- An object whose members are complete. -/
  | object (members : List (Option String × Value))
  /-- An object whose last key waits for its value. -/
  | member (members : List (Option String × Value)) (key? : Option String)

inductive Expected where
  /-- A value. -/
  | value
  /-- The first item of an array, or its end. -/
  | firstItem
  /-- The first key of an object, or its end. -/
  | firstKey
  /-- A key. -/
  | key
  /-- The colon behind a key. -/
  | colon
  /-- A comma, or the end of the container. -/
  | separator
  /-- Nothing: the document is complete. -/
  | nothing

/-- How far a document has been read. -/
structure Progress where
  expected : Expected
  frames : List Frame
  /-- The document, once it is complete. -/
  document? : Option Value

namespace Progress

def start : Progress := ⟨.value, [], none⟩

/-- Puts a complete value where it belongs. -/
def deliver (value : Value) : List Frame → Progress
  | [] => ⟨.nothing, [], some value⟩
  | .array items :: frames => ⟨.separator, .array (value :: items) :: frames, none⟩
  | .member members key? :: frames =>
    ⟨.separator, .object ((key?, value) :: members) :: frames, none⟩
  | .object members :: frames => ⟨.separator, .object members :: frames, none⟩

def takeValue (token : Token) (frames : List Frame) : Option Progress :=
  match token with
  | .null => some (deliver .null frames)
  | .bool value => some (deliver (.bool value) frames)
  | .number spelling => some (deliver (.number spelling) frames)
  | .string text? => some (deliver (.string text?) frames)
  | .openBracket => some ⟨.firstItem, .array [] :: frames, none⟩
  | .openBrace => some ⟨.firstKey, .object [] :: frames, none⟩
  | _ => none

def takeClose (token : Token) (frames : List Frame) : Option Progress :=
  match token, frames with
  | .closeBracket, .array items :: outer => some (deliver (.array items.reverse) outer)
  | .closeBrace, .object members :: outer => some (deliver (.object members.reverse) outer)
  | _, _ => none

def takeKey (token : Token) (frames : List Frame) : Option Progress :=
  match token, frames with
  | .string text?, .object members :: outer => some ⟨.colon, .member members text? :: outer, none⟩
  | _, _ => none

def take? (progress : Progress) (token : Token) : Option Progress :=
  let frames := progress.frames
  match progress.expected with
  | .value => takeValue token frames
  | .firstItem => takeClose token frames <|> takeValue token frames
  | .firstKey => takeClose token frames <|> takeKey token frames
  | .key => takeKey token frames
  | .colon => if token = .colon then some ⟨.value, frames, none⟩ else none
  | .separator =>
    if token = .comma then
      match frames with
      | .array _ :: _ => some ⟨.value, frames, none⟩
      | .object _ :: _ => some ⟨.key, frames, none⟩
      | _ => none
    else takeClose token frames
  | .nothing => none

end Progress

def ofTokens? (tokens : List Token) : Option Value :=
  (tokens.foldlM Progress.take? Progress.start).bind (·.document?)

def parse? (text : String) : Option Value := (tokens? text.toList).bind ofTokens?

end ElfLens.Json
