import MemoryBus.Bus

/-! A synthetic trace of instruction fetches, stack and heap traffic, device polls and expansion
accesses, the same at every run. -/
namespace MemoryBus

/-- Where the trace stands: its generator of numbers, and the program and stack addresses. -/
structure Trace where
  seed : UInt32
  pc : UInt32
  sp : UInt32
  deriving DecidableEq

namespace Trace

variable {σ : Type} (h : Handler σ) (limit : Nat)

def start : Trace := ⟨0x12345678, 0x00400000, 0x00008000⟩

/-- What an iteration does after its instruction fetch. -/
inductive Activity
  | push
  | peek
  | heap
  | pollTimer
  | expansion
  | pollSerial
  deriving DecidableEq

/-- Of sixteen draws, six push, four peek, three work on the heap and one does each of the others. -/
def activity (r : UInt32) : Activity :=
  let n := r.toNat % 16
  if n ≤ 5 then .push
  else if n ≤ 9 then .peek
  else if n ≤ 12 then .heap
  else if n = 13 then .pollTimer
  else if n = 14 then .expansion
  else .pollSerial

def draw (t : Trace) : UInt32 := t.seed * 1664525 + 1013904223

def nextPc (t : Trace) : UInt32 := 0x00400000 ||| ((t.pc + 2) &&& 0x0001FFFE)

def pushed (sp : UInt32) : UInt32 := 0x00007000 ||| ((sp - 4) &&& 0x0FFC)

def heapAddress (r : UInt32) : UInt32 := (r >>> (8 : UInt32)) &&& 0x003FFFFF

def expansionAddress (r : UInt32) : UInt32 := 0x00F00000 ||| ((r >>> (12 : UInt32)) &&& 0x0007FFFE)

def timerAddress : UInt32 := 0x00EFE1FE

def serialAddress : UInt32 := 0x00BFFFFF

def step (t : Trace) (b : Bus σ) : Except Fault (Trace × Bus σ) := do
  let (_, b) ← b.readWord h limit t.pc
  let r := t.draw
  let t := { t with pc := t.nextPc, seed := r }
  match activity r with
  | .push =>
    let sp := pushed t.sp
    return ({ t with sp }, ← b.writeLong h limit sp r)
  | .peek => return (t, (← b.readLong h limit t.sp).2)
  | .heap =>
    let b ← b.writeByte h limit (heapAddress r) r.toUInt8
    return (t, (← b.readWord h limit (heapAddress r)).2)
  | .pollTimer => return (t, (← b.readByte h limit timerAddress).2)
  | .expansion => return (t, (← b.readWord h limit (expansionAddress r)).2)
  | .pollSerial => return (t, ← b.writeByte h limit serialAddress r.toUInt8)

def progress (done total : Nat) (b : Bus σ) : Event :=
  let stats := b.stats.table
  .remark .info s!"Progress: {done}/{total} | lookups: {stats.lookups} | probes: {stats.probes}"

/-- The iterations that remain of `total`, with a line of progress about every tenth part. -/
def iterate (total : Nat) : Nat → Trace → Bus σ → Except Fault (Bus σ)
  | 0, _, b => .ok b
  | remaining + 1, t, b => do
    let done := total - (remaining + 1)
    let b := if done ≠ 0 ∧ done % max (total / 10) 1 = 0 then b.note (progress done total b) else b
    let (t, b) ← t.step h limit b
    iterate total remaining t b

def run (iterations : Nat) (b : Bus σ) : Except Fault (Bus σ) := iterate h limit iterations iterations start b

end Trace
end MemoryBus
