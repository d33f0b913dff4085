import MemoryBus.Bus

/-! The control surface of an interpreter core: reset, interrupt level, and budgets of cycles.
The host counts in cycles of the core shifted left by a scale. -/
namespace MemoryBus

variable {γ σ : Type}

/-- An interpreter whose own state is `γ`, running against a bus. -/
structure Core (γ σ : Type) where
  pulseReset : γ → Bus σ → Except Fault (γ × Bus σ)
  setIrq : γ → UInt8 → γ
  /-- Runs for a number of cycles; yields the number it took. -/
  execute : γ → Bus σ → Int32 → Except Fault (Int32 × γ × Bus σ)
  cyclesRemaining : γ → Int32
  endTimeslice : γ → γ
  modifyTimeslice : γ → Int32 → γ

/-- A core with its scale, and the interrupt level last set. -/
structure Cpu (γ : Type) where
  core : γ
  shift : Nat
  level : UInt8

namespace Cpu

def defaultShift : Nat := 6

def maxShift : Nat := 31

def maxLevel : UInt8 := 7

/-- The largest number of cycles, which larger ones become. -/
def maxCycles : Nat := 0x7FFFFFFF

def withShift (core : γ) (shift : Nat) : Cpu γ × List Event :=
  let clamped := Event.remark .warn s!"Cycle scale shift {shift} clamped to {maxShift}"
  (⟨core, min shift maxShift, 0⟩, if maxShift < shift then [clamped] else [])

variable (o : Core γ σ)

def reset (c : Cpu γ) (b : Bus σ) : Except Fault (Cpu γ × Bus σ) := do
  let (core, b) ← o.pulseReset c.core (b.note (.remark .info "CPU reset"))
  return ({ c with core }, b)

/-- Sets the level and ends the timeslice, so that the core sees the interrupt at once. -/
def setLevel (c : Cpu γ) (level : UInt8) : Cpu γ × List Event :=
  let level := min level maxLevel
  let changed := Event.remark .debug s!"IPL {c.level} -> {level}"
  ({ c with level, core := o.endTimeslice (o.setIrq c.core level) }, if level = c.level then [] else [changed])

/-- The cycles of the core in a budget of the host, rounded down. -/
def budget (shift : Nat) (host : UInt32) : Int32 := Int32.ofNat (min (host.toNat >>> shift) maxCycles)

def run (c : Cpu γ) (b : Bus σ) (host : UInt32) : Except Fault (Int32 × Cpu γ × Bus σ) := do
  let (taken, core, b) ← o.execute c.core b (budget c.shift host)
  return (taken, { c with core }, b)

/-- What is left of the timeslice, in cycles of the host. A core that has overrun is stopped. -/
def remaining (c : Cpu γ) : Int32 × Cpu γ :=
  let left := (o.cyclesRemaining c.core).toInt
  if left < 0 then (0, { c with core := o.endTimeslice c.core })
  else (Int32.ofNat (min (left.toNat <<< c.shift) maxCycles), c)

def setRemaining (c : Cpu γ) (host : Int32) : Cpu γ :=
  let core := o.endTimeslice c.core
  if host.toInt > 0 then { c with core := o.modifyTimeslice core (Int32.ofInt (host.toInt >>> c.shift)) }
  else { c with core }

end Cpu
end MemoryBus
