import ElfLens.Config.Basic
import ElfLens.Memory.Source
import ElfLens.Segment
/-!
The addresses of one image. A mapped image is read at run-time addresses, and an address from one of
its tables that lies below the base is taken relative to it. The addresses of a file are the ones it
was linked for, and the loaded segments say where in the file they are.
-/

set_option autoImplicit false

namespace ElfLens

/-- What the addresses in the tables of an image mean. -/
inductive AddressDomain where
  /-- They are used as they are stored. -/
  | linked
  /-- Those below the base are distances from it. -/
  | loaded (base : UInt64)
  deriving DecidableEq, Repr

namespace AddressDomain

/-- The address that a stored address stands for. -/
def resolve : AddressDomain → UInt64 → UInt64
  | linked, address => address
  | loaded base, address =>
    if address < base then (Word.plus? base address).getD address else address

end AddressDomain

/-- Where an image lies. -/
inductive Placement where
  /-- It lies in memory from `base` to `high`. -/
  | mapped (base high : UInt64) (ordered : base ≤ high)
  /-- It is a file of `length` bytes with these loaded segments. -/
  | file (length : UInt64) (loads : List Segment)

/-- The memory of an image and the part of it that the image takes up. -/
structure AddressSpace where
  memory : Memory
  placement : Placement
  limits : Limits

namespace AddressSpace

/-- An image in memory; one that would end before it starts is empty. -/
def mapped (memory : Memory) (base high : UInt64) (limits : Limits) : AddressSpace where
  memory := memory
  placement :=
    if ordered : base ≤ high then .mapped base high ordered
    else .mapped base base (UInt64.le_refl base)
  limits := limits

/-- An image in a file whose segments are not known yet. -/
def file (memory : Memory) (length : UInt64) (limits : Limits) : AddressSpace where
  memory := memory
  placement := .file length []
  limits := limits

/-- The same image with its segments known; only a file makes use of them. -/
def withSegments (space : AddressSpace) (segments : List Segment) : AddressSpace :=
  match space.placement with
  | .mapped _ _ _ => space
  | .file length _ => { space with placement := .file length (segments.filter (·.isLoad)) }

def isMapped (space : AddressSpace) : Bool :=
  match space.placement with
  | .mapped _ _ _ => true
  | .file _ _ => false

def base (space : AddressSpace) : UInt64 :=
  match space.placement with
  | .mapped base _ _ => base
  | .file _ _ => 0

def high (space : AddressSpace) : UInt64 :=
  match space.placement with
  | .mapped _ high _ => high
  | .file length _ => length

def length (space : AddressSpace) : UInt64 := space.high - space.base

def domain (space : AddressSpace) : AddressDomain :=
  match space.placement with
  | .mapped base _ _ => .loaded base
  | .file _ _ => .linked

def normalize (space : AddressSpace) (address : UInt64) : UInt64 := space.domain.resolve address

def isResident (space : AddressSpace) (offset length : UInt64) : Bool :=
  offset.toNat + length.toNat ≤ space.length.toNat

def readImage (space : AddressSpace) (offset length : UInt64) : Except Fault Bytes :=
  if space.isResident offset length then space.memory.read (space.base + offset) length
  else .error (.truncatedTable offset.toNat length.toNat)

/-- The file offset of a range of addresses that one loaded segment fills from the file. -/
def fileOffset? (space : AddressSpace) (address length : UInt64) : Option UInt64 :=
  match space.placement with
  | .mapped _ _ _ => none
  | .file _ loads => loads.findSome? (·.rangeOffset? address length)

/-- The bytes of a table at an address, no more than the limit. -/
def readTable (space : AddressSpace) (address length : UInt64) : Except Fault Bytes :=
  if space.limits.tableBytes < length then .error (.truncatedTable address.toNat length.toNat)
  else
    match space.placement with
    | .mapped _ _ _ => space.memory.read address length
    | .file _ _ =>
      match space.fileOffset? address length with
      | some offset => space.memory.read offset length
      | none => .error (.truncatedTable address.toNat length.toNat)

theorem size_of_readTable {space : AddressSpace} {address length : UInt64} {bytes : Bytes}
    (read : space.readTable address length = .ok bytes) : bytes.size = length.toNat := by
  unfold readTable at read
  split at read
  · cases read
  · split at read
    · exact space.memory.size_of_read read
    · split at read
      · exact space.memory.size_of_read read
      · cases read

theorem base_le_high (space : AddressSpace) : space.base ≤ space.high := by
  unfold base high
  split
  · assumption
  · exact UInt64.zero_le

theorem toNat_length (space : AddressSpace) :
    space.length.toNat = space.high.toNat - space.base.toNat :=
  UInt64.toNat_sub_of_le _ _ space.base_le_high

/-- A range inside the image does not run past the last address. -/
theorem base_add_of_isResident {space : AddressSpace} {offset length : UInt64}
    (resident : space.isResident offset length) :
    space.base.toNat + offset.toNat + length.toNat ≤ space.high.toNat := by
  have ordered := UInt64.le_iff_toNat_le.mp space.base_le_high
  have inside := of_decide_eq_true resident
  rw [toNat_length] at inside
  omega

end AddressSpace
end ElfLens
