import MemoryBus.Range

/-! One-entry caches: the range that last served an access of one kind. -/
namespace MemoryBus

/-- A slot translates the addresses `a` with `a AND mask = value`. -/
structure Slot where
  mask : UInt32
  value : UInt32
  backing : Backing
  deriving DecidableEq, Inhabited

namespace Slot

/-- No address satisfies this: the mask clears every bit and the value has every bit. -/
def empty : Slot := ⟨0, 0xFFFFFFFF, ⟨0, 0, 0⟩⟩

def isEmpty (s : Slot) : Bool := s.mask == 0 && s.value == 0xFFFFFFFF

def ofRange (r : Range) (k : Backing) : Slot := ⟨r.mask, r.value, k⟩

/-- Comparing bit 0 as well keeps odd addresses out of a slot that an even address filled. -/
def ofRangeEven (r : Range) (k : Backing) : Slot := ⟨r.mask ||| 1, r.value, k⟩

/-- The bank and offset of an address that the slot knows. -/
def translate (s : Slot) (a : UInt32) : Option (Nat × Nat) :=
  if a &&& s.mask == s.value then some (s.backing.bank, s.backing.offset a) else none

end Slot

inductive Width
  | byte
  | word
  deriving DecidableEq, Repr

structure Slots where
  readByte : Slot
  writeByte : Slot
  readWord : Slot
  writeWord : Slot
  deriving DecidableEq, Inhabited

namespace Slots

def empty : Slots := ⟨.empty, .empty, .empty, .empty⟩

def isEmpty (s : Slots) : Bool :=
  s.readByte.isEmpty && s.writeByte.isEmpty && s.readWord.isEmpty && s.writeWord.isEmpty

def get (s : Slots) : Direction → Width → Slot
  | .read, .byte => s.readByte
  | .write, .byte => s.writeByte
  | .read, .word => s.readWord
  | .write, .word => s.writeWord

/-- Remembers that range `r` served an access of this kind from `k`. -/
def remember (s : Slots) (d : Direction) (w : Width) (r : Range) (k : Backing) : Slots :=
  match d, w with
  | .read, .byte => { s with readByte := .ofRange r k }
  | .write, .byte => { s with writeByte := .ofRange r k }
  | .read, .word => { s with readWord := .ofRangeEven r k }
  | .write, .word => { s with writeWord := .ofRangeEven r k }

end Slots
end MemoryBus
