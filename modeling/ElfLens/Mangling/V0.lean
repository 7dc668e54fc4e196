import ElfLens.Mangling.V0.Constant
import ElfLens.Mangling.V0.Path
import ElfLens.Mangling.V0.Type

set_option autoImplicit false

namespace ElfLens.Mangling.V0

open Printer

namespace Level

/-- A level with the printer of open paths that its other printers give. -/
def withOpenPath (level : Level) : Level := { level with openPath := V0.openPath level }

def bottom : Level := withOpenPath {
  path := fun _ => stop tooDeep
  type := V0.type none
  const := V0.const none
  openPath := return false
  below? := none }

def above (level : Level) : Level := withOpenPath {
  path := V0.path level
  type := V0.type (some level)
  const := V0.const (some level)
  openPath := return false
  below? := some level }

def ofDepth : (depth : Nat) → Level
  | 0 => bottom
  | depth + 1 => above (ofDepth depth)

end Level

def depthLimit : Nat := 500

/-- What remains of a name behind the path that it starts with. -/
def afterPath? (symbol rest : List Char) : Option (List Char) :=
  let (_, walk) := ((Level.ofDepth depthLimit).path false).run
    { Walk.start symbol true with rest }
  if walk.isDamaged then none else some walk.rest

def pathText (symbol : List Char) : String :=
  let (done?, walk) := ((Level.ofDepth depthLimit).path true).run (Walk.start symbol false)
  if done?.isSome then walk.text else walk.text ++ tooLong

def startsPath : List Char → Bool
  | c :: _ => c.isUpper
  | [] => false

/-- The path behind one of the marks that start such a name. -/
def body? : List Char → Option (List Char)
  | '_' :: 'R' :: c :: body => some (c :: body)
  | 'R' :: c :: body => some (c :: body)
  | '_' :: '_' :: 'R' :: c :: body => some (c :: body)
  | _ => none

/-- The path that a name stands for, and what follows it. -/
def demangle? (name : List Char) : Option (String × List Char) := do
  let symbol ← body? name
  guard (startsPath symbol ∧ symbol.all (·.toNat < 0x80))
  let rest ← afterPath? symbol symbol
  let tail ← if startsPath rest then afterPath? symbol rest else some rest
  return (pathText symbol, tail)

end ElfLens.Mangling.V0
