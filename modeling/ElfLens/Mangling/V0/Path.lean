import ElfLens.Mangling.V0.Level

set_option autoImplicit false

namespace ElfLens.Mangling.V0

open Printer

/-- Writes the entity of a namespace behind the path that it belongs to. -/
def member (letter? : Option Char) (number : Nat) (identifier : Identifier) : Printer Unit := do
  match letter? with
  | some letter =>
    write "::\x7b"
    write (match letter with | 'C' => "closure" | 'S' => "shim" | _ => String.singleton letter)
    if ! identifier.isEmpty then
      write ":"
      writeIdentifier identifier
    write "#"
    write (toString number)
    write "\x7d"
  | none =>
    if ! identifier.isEmpty then
      write "::"
      writeIdentifier identifier

def path (level : Level) (inValue : Bool) : Printer Unit := do
  let some tag ← read? Reader.next | return
  match tag with
  | 'C' =>
    let some _ ← read? Reader.disambiguator | return
    let some identifier ← read? Reader.identifier | return
    writeIdentifier identifier
  | 'N' =>
    let some letter? ← read? Reader.namespaceLetter | return
    level.path inValue
    if (← get).isDamaged then write "::"
    let some number ← read? Reader.disambiguator | return
    let some identifier ← read? Reader.identifier | return
    member letter? number identifier
  | 'M' =>
    let some _ ← read? Reader.disambiguator | return
    silently (level.path false)
    write "<"
    level.type
    write ">"
  | 'X' =>
    let some _ ← read? Reader.disambiguator | return
    silently (level.path false)
    write "<"
    level.type
    write " as "
    level.path false
    write ">"
  | 'Y' =>
    write "<"
    level.type
    write " as "
    level.path false
    write ">"
  | 'I' =>
    level.path inValue
    if inValue then write "::"
    write "<"
    let _ ← list ", " (level.genericArgument)
    write ">"
  | 'B' => level.reference () (·.path inValue)
  | _ => damage invalid

/-- Writes a path and leaves its arguments open. -/
def openPath (level : Level) : Printer Bool := do
  if ← accepts 'B' then level.reference false (·.openPath)
  else if ← accepts 'I' then
    level.path false
    write "<"
    let _ ← list ", " (level.genericArgument)
    return true
  else
    level.path false
    return false

end ElfLens.Mangling.V0
