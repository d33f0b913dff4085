import MemoryBus.Cpu
import MemoryBus.Scenario.Answer

/-! A small interpreter that fetches words, branches, pushes and adds, and records its calls. -/
namespace MemoryBus.Scenario

variable {σ : Type} (h : Handler σ) (limit : Nat)

structure ScriptedCore where
  /-- An idle core runs no cycles. -/
  idle : Bool
  /-- The cycles of one fetch. -/
  cost : Int32
  /-- The most fetches in one timeslice. -/
  fetches : Nat
  ssp : UInt32
  pc : UInt32
  acc : UInt32
  remaining : Int32
  /-- The latest first. -/
  calls : List CoreCall

namespace ScriptedCore

def create (idle : Bool) (cost : Int32) (fetches : Nat) : ScriptedCore := ⟨idle, cost, fetches, 0, 0, 0, 0, []⟩

def record (c : ScriptedCore) (call : CoreCall) : ScriptedCore := { c with calls := call :: c.calls }

/-- The stack pointer is at address 0 and the program counter at address 4. -/
def pulseReset (c : ScriptedCore) (b : Bus σ) : Except Fault (ScriptedCore × Bus σ) := do
  let (ssp, b) ← b.readLong h limit 0
  let (pc, b) ← b.readLong h limit 4
  return ({ c.record .reset with ssp, pc }, b)

/-- A byte as a signed displacement. -/
def displacement (b : UInt8) : UInt32 := b.toInt8.toInt32.toUInt32

/-- What a fetched word does: branch, store the program counter, add a byte, or nothing. -/
def perform (c : ScriptedCore) (b : Bus σ) (w : UInt16) : Except Fault (ScriptedCore × Bus σ) :=
  let address := (w &&& 0xFFF).toUInt32
  match (w >>> 12).toNat with
  | 0x6 => .ok ({ c with pc := c.pc + displacement w.toUInt8 }, b)
  | 0xA => do return (c, ← b.writeLong h limit address c.pc)
  | 0xB => do
    let (v, b) ← b.readByte h limit address
    return ({ c with acc := c.acc + v.toUInt32 }, b)
  | _ => .ok (c, b)

def stopWord : UInt16 := 0x4E72

/-- Fetches while cycles remain, up to a number of fetches or a stop. -/
def slice (c : ScriptedCore) (b : Bus σ) : Nat → Except Fault (ScriptedCore × Bus σ)
  | 0 => .ok (c, b)
  | fetches + 1 =>
    if c.remaining ≤ 0 then .ok (c, b)
    else do
      let (w, b) ← b.readWord h limit c.pc
      let c := { c with pc := c.pc + 2, remaining := c.remaining - c.cost }
      if w = stopWord then return (c, b)
      let (c, b) ← c.perform h limit b w
      c.slice b fetches

def execute (c : ScriptedCore) (b : Bus σ) (cycles : Int32) : Except Fault (Int32 × ScriptedCore × Bus σ) := do
  let c := c.record (.execute cycles)
  if c.idle then return (0, c, b)
  let (c, b) ← { c with remaining := cycles }.slice h limit b c.fetches
  return (cycles - c.remaining, c, b)

def core : Core ScriptedCore σ where
  pulseReset := pulseReset h limit
  setIrq c level := c.record (.irq level)
  execute := execute h limit
  cyclesRemaining c := c.remaining
  endTimeslice c := { c.record .endTimeslice with remaining := 0 }
  modifyTimeslice c n := { c.record (.modify n) with remaining := c.remaining + n }

end ScriptedCore

/-- The registers, and the calls since the last report, which are then forgotten. -/
def reportCore (value : Option Int32) (c : Cpu ScriptedCore) : CoreReport × Cpu ScriptedCore :=
  let k := c.core
  (⟨value, k.calls.reverse, k.pc, k.ssp, k.acc, k.remaining, c.level⟩, { c with core := { k with calls := [] } })

end MemoryBus.Scenario
