import ElfLens.Mangling.V0.Reader

set_option autoImplicit false

namespace ElfLens.Mangling.V0

/-- How far a name has been read, and what has been written for it. -/
structure Walk where
  /-- The whole name, which references point into. -/
  symbol : List Char
  rest : List Char
  /-- Damage was found, and nothing more is read. -/
  isDamaged : Bool
  /-- Nothing is written, and references are not followed. -/
  isSilent : Bool
  /-- How many lifetimes the enclosing binders name. -/
  lifetimes : Nat
  text : String

def Walk.start (symbol : List Char) (isSilent : Bool) : Walk :=
  ⟨symbol, symbol, false, isSilent, 0, ""⟩

/-- Reads and writes; it stops for good when the text has grown too long. -/
abbrev Printer (α : Type) := OptionT (StateM Walk) α

namespace Printer

/-- The longest text, in bytes. -/
def sizeLimit : Nat := 1000000

/-- The note on a name that cannot be read on. -/
def invalid : String := "\x7binvalid syntax\x7d"

/-- The note on a name that is nested too deep. -/
def tooDeep : String := "\x7brecursion limit reached\x7d"

/-- The note on a text that has grown too long. -/
def tooLong : String := "\x7bsize limit reached\x7d"

def write (text : String) : Printer Unit := do
  let walk ← get
  if walk.isSilent then return
  if walk.text.utf8ByteSize + text.utf8ByteSize ≤ sizeLimit then
    set { walk with text := walk.text ++ text }
  else failure

def damage (note : String) : Printer Unit := do
  write note
  modify ({ · with isDamaged := true })

/-- Notes that the name cannot be read on here, with a question mark after earlier damage. -/
def stop (note : String) : Printer Unit := do
  if (← get).isDamaged then write "?" else damage note

/-- Reads something. Without an answer, the reason has been written. -/
def read? {α : Type} (reader : Reader α) : Printer (Option α) := do
  let walk ← get
  if walk.isDamaged then
    write "?"
    return none
  match reader walk.rest with
  | some (value, rest) =>
    set { walk with rest }
    return some value
  | none =>
    damage invalid
    return none

def accepts (expected : Char) : Printer Bool := do
  if (← get).isDamaged then return false
  let found ← read? (Reader.accepts expected)
  return found = some true

def silently (printer : Printer Unit) : Printer Unit := do
  let before ← get
  set { before with isSilent := true }
  printer
  modify ({ · with isSilent := before.isSilent })

def writeIdentifier (identifier : Identifier) : Printer Unit := identifier.pieces.forM write

/-- Writes items up to the letter that ends a list, as many as `fuel` at most, and counts them. -/
def items (separator : String) (item : Printer Unit) (written : Nat) : (fuel : Nat) → Printer Nat
  | 0 => return written
  | fuel + 1 => do
    if (← get).isDamaged then return written
    if ← accepts 'E' then return written
    if 0 < written then write separator
    item
    items separator item (written + 1) fuel

/-- Writes the items of a list and counts them. Every item takes at least one character. -/
def list (separator : String) (item : Printer Unit) : Printer Nat := do
  items separator item 0 ((← get).rest.length + 1)

/-- Writes the items of a list; a comma behind a single one tells it from one in parentheses. -/
def tuple (item : Printer Unit) : Printer Unit := do
  write "("
  if (← list ", " item) = 1 then write ","
  write ")"

/-- Writes the lifetime that is `index` binders out; none is written for index zero. -/
def lifetime (index : Nat) : Printer Unit := do
  let walk ← get
  if walk.isSilent then return
  write "'"
  if index = 0 then write "_"
  else if index ≤ walk.lifetimes then
    let depth := walk.lifetimes - index
    if depth < 26 then write (String.singleton (Char.ofNat ('a'.toNat + depth)))
    else
      write "_"
      write (toString depth)
  else damage invalid

def nameLifetimes (first : Bool) : (count : Nat) → Printer Unit
  | 0 => return
  | count + 1 => do
    if ! first then write ", "
    modify fun walk => { walk with lifetimes := walk.lifetimes + 1 }
    lifetime 1
    nameLifetimes false count

/-- Runs a printer behind the lifetimes that a binder names for it. -/
def inBinder (printer : Printer Unit) : Printer Unit := do
  let some count ← read? (Reader.markedNumber 'G') | return
  let before ← get
  if before.isSilent then printer
  else
    if 0 < count then
      write "for<"
      nameLifetimes true count
      write "> "
    printer
    modify ({ · with lifetimes := before.lifetimes })

/-- The place in front of the character read last that a number names. -/
def target : Printer (Option Nat) := do
  let walk ← get
  let here := walk.symbol.length - walk.rest.length - 1
  read? do
    let place ← Reader.number62
    if place < here then return place else failure

end Printer
end ElfLens.Mangling.V0
