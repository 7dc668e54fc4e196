import ElfLens.Mangling.V0.Level

set_option autoImplicit false

namespace ElfLens.Mangling.V0

open Printer

def basicType? : Char → Option String
  | 'a' => some "i8"
  | 'b' => some "bool"
  | 'c' => some "char"
  | 'd' => some "f64"
  | 'e' => some "str"
  | 'f' => some "f32"
  | 'h' => some "u8"
  | 'i' => some "isize"
  | 'j' => some "usize"
  | 'l' => some "i32"
  | 'm' => some "u32"
  | 'n' => some "i128"
  | 'o' => some "u128"
  | 'p' => some "_"
  | 's' => some "i16"
  | 't' => some "u16"
  | 'u' => some "()"
  | 'v' => some "..."
  | 'x' => some "i64"
  | 'y' => some "u64"
  | 'z' => some "!"
  | _ => none

/-- Writes the bindings of associated types, as many as `fuel` at most, and says whether the list
that they stand in is to be closed, which it is not behind a binding that cannot be read. -/
def bindings (level : Level) (isOpen : Bool) : (fuel : Nat) → Printer Bool
  | 0 => return isOpen
  | fuel + 1 => do
    if ← accepts 'p' then
      write (if isOpen then ", " else "<")
      let some identifier ← read? Reader.identifier | return false
      writeIdentifier identifier
      write " = "
      level.type
      bindings level true fuel
    else return isOpen

/-- Writes a trait with the bindings of its associated types. -/
def boundTrait (level : Level) : Printer Unit := do
  let isOpen ← level.openPath
  if ← bindings level isOpen ((← get).rest.length + 1) then write ">"

/-- The name of a calling convention, in which underscores stand for hyphens. -/
def conventionName? (identifier : Identifier) : Option String :=
  if identifier.plain.isEmpty || ! identifier.insertions.isEmpty then none
  else some (String.ofList (identifier.plain.map fun c => if c = '_' then '-' else c))

def functionType (level : Level) : Printer Unit := do
  let isUnsafe ← accepts 'U'
  let mut convention? : Option String := none
  if ← accepts 'K' then
    if ← accepts 'C' then convention? := some "C"
    else
      let some identifier ← read? Reader.identifier | return
      let some name := conventionName? identifier | damage invalid
      convention? := some name
  if isUnsafe then write "unsafe "
  if let some name := convention? then
    write "extern \""
    write name
    write "\" "
  write "fn("
  let _ ← list ", " level.type
  write ")"
  if ! (← accepts 'u') then
    write " -> "
    level.type

/-- Writes a type whose tag stands for no basic type. -/
def compoundType (level : Level) (tag : Char) : Printer Unit := do
  match tag with
  | 'R' =>
    write "&"
    borrowed
    level.type
  | 'Q' =>
    write "&"
    borrowed
    write "mut "
    level.type
  | 'P' =>
    write "*const "
    level.type
  | 'O' =>
    write "*mut "
    level.type
  | 'A' =>
    write "["
    level.type
    write "; "
    level.const true
    write "]"
  | 'S' =>
    write "["
    level.type
    write "]"
  | 'T' => tuple level.type
  | 'F' => inBinder (functionType level)
  | 'D' =>
    write "dyn "
    inBinder do
      let _ ← list " + " (boundTrait level)
    if ! (← accepts 'L') then damage invalid
    else
      let some index ← read? Reader.number62 | return
      if index ≠ 0 then
        write " + "
        lifetime index
  | 'B' => level.reference () (·.type)
  | _ =>
    modify fun walk => { walk with rest := tag :: walk.rest }
    level.path false
where
  /-- Writes the lifetime of a reference when it is spelled. -/
  borrowed : Printer Unit := do
    if ← accepts 'L' then
      let some index ← read? Reader.number62 | return
      if index ≠ 0 then
        lifetime index
        write " "

/-- Writes a type. Only a compound type needs a level. -/
def type (level? : Option Level) : Printer Unit := do
  let some tag ← read? Reader.next | return
  match basicType? tag, level? with
  | some name, _ => write name
  | none, some level => compoundType level tag
  | none, none => damage tooDeep

end ElfLens.Mangling.V0
