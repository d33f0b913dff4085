/-! Windows of the address space: which addresses one owns, what it allows, and which bytes back it. -/
namespace MemoryBus

/-- The capabilities of a range, as a set of bits. Bits without a name are kept and grant nothing. -/
structure Access where
  bits : UInt32
  deriving DecidableEq, Inhabited

namespace Access

def none : Access := ⟨0⟩

/-- Reads are served from a bank and may be cached. -/
def read : Access := ⟨1⟩

/-- Writes are served from a bank and may be cached. -/
def write : Access := ⟨2⟩

/-- Every access is a call to the device. -/
def device : Access := ⟨4⟩

/-- The handler is told first, and the access is then made again. -/
def notify : Access := ⟨8⟩

def union (a b : Access) : Access := ⟨a.bits ||| b.bits⟩

/-- Every capability of `b` is one of `a`. -/
def has (a b : Access) : Bool := a.bits &&& b.bits == b.bits

/-- Some capability of `b` is one of `a`. -/
def meets (a b : Access) : Bool := a.bits &&& b.bits != 0

end Access

inductive Direction
  | read
  | write
  deriving DecidableEq, Repr

/-- The capability that lets a bank serve accesses in this direction. -/
def Direction.ready : Direction → Access
  | .read => .read
  | .write => .write

/-- Where a range keeps its bytes: address `a` is at `base + (a AND mask)` of the bank. -/
structure Backing where
  bank : Nat
  base : UInt32
  mask : UInt32
  deriving DecidableEq, Inhabited

namespace Backing

/-- The sum is taken without wrapping, so it may pass the end of a word. -/
def offset (k : Backing) (a : UInt32) : Nat := k.base.toNat + (a &&& k.mask).toNat

/-- The highest offset that a byte, or a word at an even address, can reach. An even address
clears bit 0 of the masked part, so a word adds one only where the mask has bit 0 clear. -/
def lastOffset (k : Backing) : Nat :=
  k.base.toNat + k.mask.toNat + (if k.mask &&& 1 = 0 then 1 else 0)

end Backing

/-- A window: it owns the addresses `a` with `a AND mask = value`. The tag tells the devices and
notify sources of a machine apart. -/
structure Range where
  mask : UInt32
  value : UInt32
  access : Access
  backing : Option Backing
  tag : UInt32
  deriving DecidableEq, Inhabited

namespace Range

def ofAccess (mask value : UInt32) (access : Access) : Range := ⟨mask, value, access, none, 0⟩

/-- The range that owns every address and allows nothing. -/
def guard : Range := ofAccess 0 0 .none

def owns (r : Range) (a : UInt32) : Bool := a &&& r.mask == r.value

/-- Some access to the range may be served from a bank and remembered in a slot. -/
def isCacheable (r : Range) : Bool := r.access.meets (.union .read .write)

/-- The bank bytes that serve accesses in this direction, if any do. -/
def served (r : Range) (d : Direction) : Option Backing :=
  if r.access.has d.ready then r.backing else none

end Range
end MemoryBus
