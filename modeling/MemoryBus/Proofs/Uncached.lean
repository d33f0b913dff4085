import MemoryBus.Operation

/-! Accesses without slots: every byte and every even word is looked up in the table. -/
namespace MemoryBus

variable {σ : Type}

namespace Uncached

variable (h : Handler σ) (limit : Nat)

def readByte (b : Bus σ) (a : UInt32) : Except Fault (UInt8 × Bus σ) := do
  match ← b.resolve h .read a limit with
  | (.memory _ k, b) => return (← b.map.banks.readByte k.bank (k.offset a), b)
  | (.device r, b) =>
    let (v, b) := b.callDevice h r (.read .byte a)
    return (v.toUInt8, b)
  | (.failed, b) => return (0, b)

def writeByte (b : Bus σ) (a : UInt32) (v : UInt8) : Except Fault (Bus σ) := do
  match ← b.resolve h .write a limit with
  | (.memory _ k, b) => b.putByte k.bank (k.offset a) v
  | (.device r, b) => return (b.callDevice h r (.write .byte a v.toUInt32)).2
  | (.failed, b) => return b

def readWord (b : Bus σ) (a : UInt32) : Except Fault (UInt16 × Bus σ) :=
  if a &&& 1 ≠ 0 then do
    let (high, b) ← readByte h limit b a
    let (low, b) ← readByte h limit b (a + 1)
    return (BigEndian.word high low, b)
  else do
    match ← b.resolve h .read a limit with
    | (.memory _ k, b) => return (← b.map.banks.readWord k.bank (k.offset a), b)
    | (.device r, b) =>
      let (v, b) := b.callDevice h r (.read .word a)
      return (v.toUInt16, b)
    | (.failed, b) => return (0, b)

def writeWord (b : Bus σ) (a : UInt32) (v : UInt16) : Except Fault (Bus σ) :=
  if a &&& 1 ≠ 0 then do
    let b ← writeByte h limit b a (BigEndian.wordHigh v)
    writeByte h limit b (a + 1) (BigEndian.wordLow v)
  else do
    match ← b.resolve h .write a limit with
    | (.memory _ k, b) => b.putWord k.bank (k.offset a) v
    | (.device r, b) => return (b.callDevice h r (.write .word a v.toUInt32)).2
    | (.failed, b) => return b

def readLong (b : Bus σ) (a : UInt32) : Except Fault (UInt32 × Bus σ) := do
  let (high, b) ← readWord h limit b a
  let (low, b) ← readWord h limit b (a + 2)
  return (BigEndian.long high low, b)

def writeLong (b : Bus σ) (a v : UInt32) : Except Fault (Bus σ) := do
  let b ← writeWord h limit b a (BigEndian.longHigh v)
  writeWord h limit b (a + 2) (BigEndian.longLow v)

def port : Port σ where
  readByte := readByte h limit
  readWord := readWord h limit
  readLong := readLong h limit
  writeByte := writeByte h limit
  writeWord := writeWord h limit
  writeLong := writeLong h limit

end Uncached

namespace Bus

variable {h : Handler σ} {limit : Nat} {b c : Bus σ}

/-- A long is two words, also where the slot knows both. -/
theorem readLong_eq (b : Bus σ) (a : UInt32) : b.readLong h limit a = (do
    let (high, b) ← b.readWord h limit a
    let (low, b) ← b.readWord h limit (a + 2)
    return (BigEndian.long high low, b)) := by
  unfold readLong
  dsimp only
  split
  · rename_i bank offset bank' offset' ht ht'
    simp only [readWord, ht]
    cases b.map.banks.readWord bank offset with
    | error e => rfl
    | ok high =>
      simp only [bind, Except.bind, pure, Except.pure, ht']
      cases b.map.banks.readWord bank' offset' <;> rfl
  · rfl

theorem slots_of_putWord {bank offset : Nat} {v : UInt16} (hb : b.putWord bank offset v = .ok c) :
    c.map.slots = b.map.slots := by
  simp only [putWord, MemoryMap.writeWord, MemoryMap.writeByte, bind, Except.bind] at hb
  by_cases h₁ : b.map.banks.holds bank offset = true
  · simp only [h₁, if_true] at hb
    split at hb <;> cases hb
    rfl
  · simp only [h₁] at hb
    cases hb

theorem writeLong_eq (b : Bus σ) (a v : UInt32) : b.writeLong h limit a v = (do
    let b ← b.writeWord h limit a (BigEndian.longHigh v)
    b.writeWord h limit (a + 2) (BigEndian.longLow v)) := by
  unfold writeLong
  dsimp only
  split
  · rename_i bank offset bank' offset' ht ht'
    simp only [writeWord, ht]
    cases hb : b.putWord bank offset (BigEndian.longHigh v) with
    | error e => rfl
    | ok c =>
      simp only [bind, Except.bind, slots_of_putWord hb, ht']
  · rfl

end Bus
end MemoryBus
