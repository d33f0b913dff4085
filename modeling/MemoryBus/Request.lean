import MemoryBus.Slot

/-! What a device is asked. -/
namespace MemoryBus

/-- One access as a device sees it. A long arrives as two words, a word at an odd address as two
bytes. -/
structure Request where
  address : UInt32
  /-- Zero when the device is read. -/
  value : UInt32
  direction : Direction
  width : Width
  deriving DecidableEq

namespace Request

def read (w : Width) (address : UInt32) : Request := ⟨address, 0, .read, w⟩

def write (w : Width) (address value : UInt32) : Request := ⟨address, value, .write, w⟩

end Request
end MemoryBus
