import ElfLens.Text.Hex

set_option autoImplicit false

namespace ElfLens

open Text (hex)

/-- How the fields of a header contradict each other. -/
inductive HeaderDefect where
  /-- The header gives itself a size that its class does not have. -/
  | headerSize (expected found : Nat)
  /-- The stride of the segment table is too small for a record of the class. -/
  | segmentStride (least found : Nat)
  /-- The stride of the section table is too small for a record of the class. -/
  | sectionStride (least found : Nat)
  /-- A table has records of no size. -/
  | zeroStride
  /-- A defect that is stated in words. -/
  | stated (text : String)
  deriving DecidableEq, Repr

def HeaderDefect.message : HeaderDefect → String
  | headerSize expected found =>
    "Invalid e_ehsize: expected " ++ toString expected ++ ", got " ++ toString found
  | segmentStride least found =>
    "Invalid e_phentsize: expected at least " ++ toString least ++ ", got " ++ toString found
  | sectionStride least found =>
    "Invalid e_shentsize: expected at least " ++ toString least ++ ", got " ++ toString found
  | zeroStride => "record entry size is zero"
  | stated text => text

/-- Why something could not be read or found. -/
inductive Fault where
  /-- The first four bytes are not the signature. -/
  | notElf
  /-- The class byte names neither the 32-bit nor the 64-bit format. -/
  | unsupportedClass (code : UInt8)
  /-- The byte order is neither of the two known. -/
  | unsupportedOrder (code : UInt8)
  /-- There are fewer bytes than a header takes. -/
  | truncatedHeader (needed found : Nat)
  /-- A table or a field runs past the bytes there are for it. -/
  | truncatedTable (offset needed : Nat)
  /-- The header contradicts itself. -/
  | malformedHeader (defect : HeaderDefect)
  /-- The file cannot supply a range. -/
  | fileRead (path : String) (offset length : Nat)
  /-- Memory cannot supply a range. -/
  | memoryRead (address length : Nat)
  /-- There is no string table to take a name from. -/
  | noStrings
  /-- There is no symbol table to take an entry from. -/
  | noSymbols
  /-- There is no hash table to search. -/
  | noHash
  /-- No text stands at an offset of a string table. -/
  | badString (offset : Nat)
  /-- A file cannot be opened or read as text. -/
  | fileAccess (reason : String)
  /-- A configuration document is not one. -/
  | badConfig (reason : String)
  deriving DecidableEq, Repr

namespace Fault

def message : Fault → String
  | notElf => "Not an ELF image: magic mismatch"
  | unsupportedClass code => "Unsupported ELF class: " ++ toString code.toNat
  | unsupportedOrder code => "Unsupported ELF data encoding: " ++ toString code.toNat
  | truncatedHeader needed found =>
    "Truncated header: needed " ++ toString needed ++ " bytes, found " ++ toString found
  | truncatedTable offset needed =>
    "Truncated table at offset " ++ hex offset ++ ": needed " ++ toString needed ++ " bytes"
  | malformedHeader defect => "Malformed header: " ++ defect.message
  | fileRead path offset length =>
    "Failed to read " ++ toString length ++ " bytes at offset " ++ hex offset ++ " from " ++ path
  | memoryRead address length =>
    "Memory read failed at " ++ hex address ++ " (" ++ toString length ++ " bytes)"
  | noStrings => "No string table"
  | noSymbols => "No symbol table"
  | noHash => "No hash table"
  | badString offset => "Invalid string at offset " ++ hex offset
  | fileAccess reason => "I/O error: " ++ reason
  | badConfig reason => "Configuration error: " ++ reason

/-- The fault only says that a table needed by a look-up is absent. -/
def isMissingTable : Fault → Bool
  | noStrings | noSymbols | noHash => true
  | _ => false

end Fault

theorem isSome_toOption {α : Type} (outcome : Except Fault α) :
    outcome.toOption.isSome = outcome.isOk := by
  cases outcome <;> rfl

theorem eq_ok_of_toOption {α : Type} {outcome : Except Fault α} {value : α}
    (told : outcome.toOption = some value) : outcome = .ok value := by
  cases outcome with
  | error fault => cases told
  | ok result => exact congrArg Except.ok (Option.some.inj told)

theorem exists_of_toOption_map {α β : Type} {outcome : Except Fault α} {f : α → β} {value : β}
    (told : outcome.toOption.map f = some value) :
    ∃ result, outcome = .ok result ∧ f result = value := by
  cases outcome with
  | error fault => cases told
  | ok result => exact ⟨result, rfl, Option.some.inj told⟩

end ElfLens
