import MemoryBus.BigEndian

/-! Named byte buffers of fixed size, kept in the order in which they were added. -/
namespace MemoryBus

instance decidableEqBytes : DecidableEq ByteArray := ByteArray.instDecidableEq

structure Bank where
  name : String
  bytes : ByteArray
  deriving DecidableEq, Inhabited

/-- Why an access could not be completed. -/
inductive Fault
  /-- The access reached past the end of a bank, or a bank that does not exist. -/
  | outsideBank (bank offset : Nat)
  /-- The handler kept asking for the access to be made again. -/
  | unresolved (address : UInt32)
  deriving DecidableEq, Repr

structure Banks where
  toArray : Array Bank
  deriving DecidableEq, Inhabited

namespace Banks

def empty : Banks := ⟨#[]⟩

def count (s : Banks) : Nat := s.toArray.size

/-- The new bank's index is the count before. -/
def add (s : Banks) (name : String) (bytes : ByteArray) : Banks := ⟨s.toArray.push ⟨name, bytes⟩⟩

/-- The first bank of that name. -/
def find? (s : Banks) (name : String) : Option Nat := s.toArray.findIdx? (·.name == name)

def name? (s : Banks) (i : Nat) : Option String := s.toArray[i]?.map (·.name)

def size? (s : Banks) (i : Nat) : Option Nat := s.toArray[i]?.map (·.bytes.size)

def bytes? (s : Banks) (i : Nat) : Option ByteArray := s.toArray[i]?.map (·.bytes)

def sizes (s : Banks) : List Nat := s.toArray.toList.map (·.bytes.size)

/-- Gives bank `i` the contents `bytes`; there is no change when the sizes differ. -/
def fill (s : Banks) (i : Nat) (bytes : ByteArray) : Banks :=
  ⟨s.toArray.modify i fun k => if k.bytes.size = bytes.size then { k with bytes } else k⟩

def byte? (s : Banks) (bank offset : Nat) : Option UInt8 :=
  match s.toArray[bank]? with
  | some k => k.bytes[offset]?
  | none => none

/-- The bank exists and `offset` is inside it. -/
def holds (s : Banks) (bank offset : Nat) : Bool := (s.byte? bank offset).isSome

def readByte (s : Banks) (bank offset : Nat) : Except Fault UInt8 :=
  match s.byte? bank offset with
  | some v => .ok v
  | none => .error (.outsideBank bank offset)

/-- Changes one byte; there is no change outside the banks. -/
def setByte (s : Banks) (bank offset : Nat) (v : UInt8) : Banks :=
  ⟨s.toArray.modify bank fun k => { k with bytes := k.bytes.set! offset v }⟩

/-- A word takes the byte at the offset and the one after it. -/
def readWord (s : Banks) (bank offset : Nat) : Except Fault UInt16 := do
  return BigEndian.word (← s.readByte bank offset) (← s.readByte bank (offset + 1))

/-- The contents `old` with `new` written over them from `offset` on, as far as they reach. -/
def overwrite (old : ByteArray) (offset : Nat) (new : List UInt8) : ByteArray :=
  (new.foldl (fun (acc, i) v => (if i < acc.size then acc.set! i v else acc, i + 1)) (old, offset)).1

/-- Changes the contents of bank `i` without changing its size. -/
def overwriteBank (s : Banks) (i offset : Nat) (new : List UInt8) : Banks :=
  ⟨s.toArray.modify i fun k => { k with bytes := overwrite k.bytes offset new }⟩

end Banks
end MemoryBus
