import MemoryBus.Range

/-! A machine's memory layout: the banks that it needs and the ranges that point into them. -/
namespace MemoryBus

inductive AccessKind
  | read
  | write
  | device
  | notify
  deriving DecidableEq, Repr

namespace AccessKind

def access : AccessKind → Access
  | read => .read
  | write => .write
  | device => .device
  | notify => .notify

def name : AccessKind → String
  | read => "read"
  | write => "write"
  | device => "device"
  | notify => "notify"

def all : List AccessKind := [read, write, device, notify]

def ofName? (s : String) : Option AccessKind := all.find? (·.name == s)

end AccessKind

structure BankLayout where
  name : String
  size : Nat
  deriving DecidableEq, Repr

structure RangeLayout where
  name : String
  mask : UInt32
  value : UInt32
  access : List AccessKind
  bank : Option String
  base : UInt32
  useMask : UInt32
  tag : UInt32
  deriving DecidableEq, Repr

namespace RangeLayout

def ofAccess (name : String) (mask value : UInt32) (access : List AccessKind) : RangeLayout :=
  ⟨name, mask, value, access, none, 0, 0, 0⟩

def capabilities (r : RangeLayout) : Access :=
  r.access.foldl (fun acc k => acc.union k.access) .none

end RangeLayout

structure Layout where
  banks : List BankLayout
  ranges : List RangeLayout
  deriving DecidableEq, Repr

/-- The devices and the notify source of the built-in layout. -/
inductive Tag
  | scc
  | iwm
  | via
  | expansion
  deriving DecidableEq

def Tag.number : Tag → UInt32
  | scc => 1
  | iwm => 2
  | via => 3
  | expansion => 4

namespace Layout

/-- The Mac Plus: RAM and ROM, three device windows, and an expansion window that is not mapped
until it is touched. -/
def macPlus : Layout where
  banks := [⟨"ram", 0x400000⟩, ⟨"rom", 0x20000⟩, ⟨"expansion", 0x80000⟩]
  ranges := [
    { RangeLayout.ofAccess "ram" 0x00C00000 0x00000000 [.read, .write] with
      bank := some "ram", useMask := 0x003FFFFF },
    { RangeLayout.ofAccess "rom" 0x00F00000 0x00400000 [.read] with
      bank := some "rom", useMask := 0x0001FFFF },
    { RangeLayout.ofAccess "scc" 0x00C00000 0x00800000 [.device] with tag := Tag.scc.number },
    { RangeLayout.ofAccess "iwm" 0x00E00000 0x00C00000 [.device] with tag := Tag.iwm.number },
    { RangeLayout.ofAccess "via" 0x00F00000 0x00E00000 [.device] with tag := Tag.via.number },
    { RangeLayout.ofAccess "expansion" 0x00F80000 0x00F00000 [.notify] with tag := Tag.expansion.number }]

/-- A range of that name which is still served by notifying. -/
def isUnmapped (name : String) (r : RangeLayout) : Bool :=
  r.name == name && r.access.contains .notify

/-- Maps the notify ranges named `range` onto a bank; `none` when there is no such range. -/
def expanded (l : Layout) (range bank : String) (useMask : UInt32) : Option Layout :=
  if l.ranges.any (isUnmapped range) then
    some { l with
      ranges := l.ranges.map fun r =>
        if isUnmapped range r then
          { r with access := [.read, .write], bank := some bank, base := 0, useMask }
        else r }
  else none

end Layout
end MemoryBus
