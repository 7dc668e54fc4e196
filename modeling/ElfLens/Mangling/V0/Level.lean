import ElfLens.Mangling.V0.Printer
/-!
Levels of nesting. The constructs of a compact name are paths, types and constants; each level has
its own printers, built on those of the level below it, so a name cannot be nested deeper than the
levels go.
-/

set_option autoImplicit false

namespace ElfLens.Mangling.V0

open Printer

/-- The printers of what may still be nested. -/
structure Level where
  /-- A path; in an expression its arguments stand behind a colon pair. -/
  path : (inValue : Bool) → Printer Unit
  type : Printer Unit
  /-- A constant; outside an expression some are shown in braces. -/
  const : (inValue : Bool) → Printer Unit
  /-- A path whose arguments may be left open for more; the answer says whether they are. -/
  openPath : Printer Bool
  /-- The level below. -/
  below? : Option Level

namespace Level

/-- Follows a reference, whose mark has been read. What it refers to is one level further down. -/
def reference {α : Type} (level : Level) (absent : α) (print : Level → Printer α) : Printer α := do
  let some place ← target | return absent
  match level.below? with
  | none =>
    damage tooDeep
    return absent
  | some below =>
    let before ← get
    if before.isSilent then return absent
    set { before with rest := before.symbol.drop place }
    let answer ← print below
    modify ({ · with rest := before.rest, isDamaged := false })
    return answer

def genericArgument (level : Level) : Printer Unit := do
  if ← accepts 'L' then
    let some index ← read? Reader.number62 | return
    lifetime index
  else if ← accepts 'K' then level.const false
  else level.type

end Level
end ElfLens.Mangling.V0
