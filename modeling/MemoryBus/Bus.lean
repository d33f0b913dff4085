import MemoryBus.Handler

/-! The bus: byte, word and long accesses of a 32-bit address space. -/
namespace MemoryBus

variable {σ : Type} (h : Handler σ) (limit : Nat)

/-- Counts of the accesses that no bank served. As those of `TableStats` they are kept in 64 bits, and stand here
for a machine on which none has reached `2 ^ 64`. -/
structure Dispatch where
  deviceAccesses : Nat
  notifications : Nat
  rejected : Nat
  failed : Nat
  deriving DecidableEq, Repr, Inhabited

def Dispatch.zero : Dispatch := ⟨0, 0, 0, 0⟩

/-- A memory map, the state of its handler, and what the accesses have met. -/
structure Bus (σ : Type) where
  map : MemoryMap
  state : σ
  dispatch : Dispatch

/-- How an access in one direction is served. -/
inductive Service
  | memory (range : Range) (backing : Backing)
  | device (range : Range)
  | failed
  deriving DecidableEq

structure BusStats where
  table : TableStats
  dispatch : Dispatch
  deriving DecidableEq, Repr

namespace Bus

def attach (map : MemoryMap) (state : σ) : Bus σ := ⟨map.note (.attached h.name), state, .zero⟩

def note (b : Bus σ) (e : Event) : Bus σ := { b with map := b.map.note e }

def stats (b : Bus σ) : BusStats := ⟨b.map.tableStats, b.dispatch⟩

def resetStats (b : Bus σ) : Bus σ := { b with map := b.map.resetStats, dispatch := .zero }

def find (b : Bus σ) (a : UInt32) : Lookup × Bus σ :=
  let ⟨map, state, dispatch⟩ := b
  let (found, map) := map.find a
  (found, ⟨map, state, dispatch⟩)

/-- Tells the handler of an access to `r`, and whether it accepts. -/
def notify (b : Bus σ) (r : Range) : Bool × Bus σ :=
  let reply := h.notify b.state r b.map
  let dispatch := { b.dispatch with notifications := b.dispatch.notifications + 1 }
  (reply.accepted, ⟨reply.map.note (.notified r reply.accepted), reply.state, dispatch⟩)

/-- Asks the device of range `r`. -/
def callDevice (b : Bus σ) (r : Range) (q : Request) : UInt32 × Bus σ :=
  let reply := h.device b.state r q
  let b := reply.remarks.foldl note { b with state := reply.state }
  (reply.value, b.note (.deviceCalled r q reply.value))

def countDevice (b : Bus σ) : Bus σ :=
  { b with dispatch := { b.dispatch with deviceAccesses := b.dispatch.deviceAccesses + 1 } }

def countRejected (b : Bus σ) : Bus σ :=
  { b with dispatch := { b.dispatch with rejected := b.dispatch.rejected + 1 } }

def countFailed (b : Bus σ) : Bus σ :=
  { b with dispatch := { b.dispatch with failed := b.dispatch.failed + 1 } }

/-- Looks an address up and decides how to serve it: by a bank if the range is ready for this
direction, else by its device, else by notifying the handler and looking again. One access may have
`limit` notifications accepted; a handler that accepts more leaves it unresolved. -/
def resolve (d : Direction) (a : UInt32) (limit : Nat) (b : Bus σ) : Except Fault (Service × Bus σ) :=
  let (found, b) := b.find a
  match found.range.served d with
  | some k => .ok (.memory found.range k, b)
  | none =>
    if found.range.access.has .device then .ok (.device found.range, b.countDevice)
    else if found.range.access.has .notify then
      match b.notify h found.range, limit with
      | (true, _), 0 => .error (.unresolved a)
      | (true, b), limit + 1 => resolve d a limit b
      | (false, b), _ => .ok (.failed, (b.countRejected.note (.declined found.range.tag d a)).countFailed)
    else .ok (.failed, (b.note (.unmapped d a)).countFailed)

def remember (b : Bus σ) (d : Direction) (w : Width) (r : Range) (k : Backing) : Bus σ :=
  { b with map := { b.map with slots := b.map.slots.remember d w r k } }

def putByte (b : Bus σ) (bank offset : Nat) (v : UInt8) : Except Fault (Bus σ) :=
  let ⟨map, state, dispatch⟩ := b
  (map.writeByte bank offset v).map fun map => ⟨map, state, dispatch⟩

def putWord (b : Bus σ) (bank offset : Nat) (v : UInt16) : Except Fault (Bus σ) :=
  let ⟨map, state, dispatch⟩ := b
  (map.writeWord bank offset v).map fun map => ⟨map, state, dispatch⟩

/-- A byte read that no slot served. -/
def fetchByte (b : Bus σ) (a : UInt32) : Except Fault (UInt8 × Bus σ) := do
  match ← b.resolve h .read a limit with
  | (.memory r k, b) =>
    let b := b.remember .read .byte r k
    return (← b.map.banks.readByte k.bank (k.offset a), b)
  | (.device r, b) =>
    let (v, b) := b.callDevice h r (.read .byte a)
    return (v.toUInt8, b)
  | (.failed, b) => return (0, b)

/-- A byte write that no slot served. -/
def storeByte (b : Bus σ) (a : UInt32) (v : UInt8) : Except Fault (Bus σ) := do
  match ← b.resolve h .write a limit with
  | (.memory r k, b) => (b.remember .write .byte r k).putByte k.bank (k.offset a) v
  | (.device r, b) => return (b.callDevice h r (.write .byte a v.toUInt32)).2
  | (.failed, b) => return b

def readByte (b : Bus σ) (a : UInt32) : Except Fault (UInt8 × Bus σ) :=
  match b.map.slots.readByte.translate a with
  | some (bank, offset) => do return (← b.map.banks.readByte bank offset, b)
  | none => b.fetchByte h limit a

def writeByte (b : Bus σ) (a : UInt32) (v : UInt8) : Except Fault (Bus σ) :=
  match b.map.slots.writeByte.translate a with
  | some (bank, offset) => b.putByte bank offset v
  | none => b.storeByte h limit a v

/-- A word read at an even address that no slot served. -/
def fetchWord (b : Bus σ) (a : UInt32) : Except Fault (UInt16 × Bus σ) := do
  match ← b.resolve h .read a limit with
  | (.memory r k, b) =>
    let b := b.remember .read .word r k
    return (← b.map.banks.readWord k.bank (k.offset a), b)
  | (.device r, b) =>
    let (v, b) := b.callDevice h r (.read .word a)
    return (v.toUInt16, b)
  | (.failed, b) => return (0, b)

/-- A word write at an even address that no slot served. -/
def storeWord (b : Bus σ) (a : UInt32) (v : UInt16) : Except Fault (Bus σ) := do
  match ← b.resolve h .write a limit with
  | (.memory r k, b) => (b.remember .write .word r k).putWord k.bank (k.offset a) v
  | (.device r, b) => return (b.callDevice h r (.write .word a v.toUInt32)).2
  | (.failed, b) => return b

/-- A word at an odd address is read as two bytes, the high one first. -/
def readWord (b : Bus σ) (a : UInt32) : Except Fault (UInt16 × Bus σ) :=
  match b.map.slots.readWord.translate a with
  | some (bank, offset) => do return (← b.map.banks.readWord bank offset, b)
  | none =>
    if a &&& 1 ≠ 0 then do
      let (high, b) ← b.readByte h limit a
      let (low, b) ← b.readByte h limit (a + 1)
      return (BigEndian.word high low, b)
    else b.fetchWord h limit a

def writeWord (b : Bus σ) (a : UInt32) (v : UInt16) : Except Fault (Bus σ) :=
  match b.map.slots.writeWord.translate a with
  | some (bank, offset) => b.putWord bank offset v
  | none =>
    if a &&& 1 ≠ 0 then do
      let b ← b.writeByte h limit a (BigEndian.wordHigh v)
      b.writeByte h limit (a + 1) (BigEndian.wordLow v)
    else b.storeWord h limit a v

/-- A long is the words at `a` and `a + 2`, the high one first. When the slot knows both, the bank is
read without further ado. -/
def readLong (b : Bus σ) (a : UInt32) : Except Fault (UInt32 × Bus σ) :=
  let slot := b.map.slots.readWord
  match slot.translate a, slot.translate (a + 2) with
  | some (bank, offset), some (bank', offset') => do
    let high ← b.map.banks.readWord bank offset
    let low ← b.map.banks.readWord bank' offset'
    return (BigEndian.long high low, b)
  | _, _ => do
    let (high, b) ← b.readWord h limit a
    let (low, b) ← b.readWord h limit (a + 2)
    return (BigEndian.long high low, b)

def writeLong (b : Bus σ) (a : UInt32) (v : UInt32) : Except Fault (Bus σ) :=
  let slot := b.map.slots.writeWord
  match slot.translate a, slot.translate (a + 2) with
  | some (bank, offset), some (bank', offset') => do
    let b ← b.putWord bank offset (BigEndian.longHigh v)
    b.putWord bank' offset' (BigEndian.longLow v)
  | _, _ => do
    let b ← b.writeWord h limit a (BigEndian.longHigh v)
    b.writeWord h limit (a + 2) (BigEndian.longLow v)

end Bus
end MemoryBus
