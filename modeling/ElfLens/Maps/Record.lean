import ElfLens.Maps.Region
import ElfLens.Text.Blank
import ElfLens.Text.Hex

set_option autoImplicit false

namespace ElfLens

namespace Region

/-- The two ends of a range, which the first hyphen separates. -/
def parseRange? (text : List Char) : Option (UInt64 × UInt64) :=
  match text.span (· ≠ '-') with
  | (start, '-' :: stop) => do
    let start ← Text.word? 16 start
    let stop ← Text.word? 16 stop
    return (start, stop)
  | _ => none

def parse? (record : List Char) : Option Region := do
  let (range, rest) ← Text.nextWord? record
  let (perms, rest) ← Text.nextWord? rest
  let (offset, rest) ← Text.nextWord? rest
  let (device, rest) ← Text.nextWord? rest
  let (inode, rest) ← Text.nextWord? rest
  let (start, stop) ← parseRange? range
  let offset ← Text.word? 16 offset
  let inode ← Text.word? 10 inode
  return {
    start, stop, offset, inode
    perms := String.ofList perms
    device := String.ofList device
    name := String.ofList (Text.trim rest) }

def lines : List Char → List (List Char)
  | [] => [[]]
  | c :: rest =>
    if c = '\n' then [] :: lines rest
    else
      match lines rest with
      | [] => [[c]]
      | first :: more => (c :: first) :: more

/-- The regions that the records of a memory map describe. A carriage return in front of the end of
a line is a blank, and so belongs to no field. -/
def parseAll (text : String) : List Region := (lines text.toList).filterMap parse?

/-- The record that describes a region, with a gap behind each field that is not the last. -/
def recordWith (gap : Nat → List Char) (region : Region) : List Char :=
  Nat.toDigits 16 region.start.toNat ++ '-' :: Nat.toDigits 16 region.stop.toNat ++ gap 0 ++
    region.perms.toList ++ gap 1 ++
    Nat.toDigits 16 region.offset.toNat ++ gap 2 ++
    region.device.toList ++ gap 3 ++
    Nat.toDigits 10 region.inode.toNat ++ gap 4 ++
    region.name.toList

/-- The record with a single blank in every gap. -/
def record (region : Region) : List Char := region.recordWith fun _ => [' ']

/-- The region can be recorded: its access text and its device are words, and no blank stands at
either end of its name. -/
structure IsRecordable (region : Region) : Prop where
  perms : Text.IsWord region.perms.toList
  device : Text.IsWord region.device.toList
  name : Text.trim region.name.toList = region.name.toList

end Region
end ElfLens
