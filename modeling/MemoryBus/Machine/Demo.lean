import MemoryBus.Handler
import MemoryBus.Layout.Build

/-! The demonstration machine: one timer register, and an expansion window that is mapped when it is
first touched. -/
namespace MemoryBus

/-- The layout is the one that the installed table was built from. -/
structure Demo where
  layout : Layout
  timer : UInt16
  deriving DecidableEq

namespace Demo

def ofLayout (layout : Layout) : Demo := ⟨layout, 0⟩

/-- Each read of the VIA advances its timer; every other device reads as zero. -/
def device (s : Demo) (r : Range) (q : Request) : DeviceReply Demo :=
  if r.tag = Tag.via.number then
    match q.direction with
    | .read => ⟨(s.timer + 1).toUInt32, { s with timer := s.timer + 1 }, []⟩
    | .write => ⟨0, s, []⟩
  else ⟨0, s, [.remark .trace s!"Device {r.tag} access at {Hex.ofWord q.address}"]⟩

/-- A table for `layout` over the banks that the map has, put in force. -/
def remap (layout : Layout) (m : MemoryMap) : Except MemoryError MemoryMap := do
  (m.install (← layout.buildTable m.banks)).mapError .table

def notify (s : Demo) (r : Range) (m : MemoryMap) : NotifyReply Demo :=
  if r.tag ≠ Tag.expansion.number then ⟨false, s, m⟩
  else
    match s.layout.expanded "expansion" "expansion" 0x0007FFFF with
    | none =>
      ⟨false, s, m.note (.remark .warn "No unmapped expansion range in layout, refusing access")⟩
    | some layout =>
      match remap layout m with
      | .ok mapped => ⟨true, { s with layout }, mapped.note (.remark .info "Expansion window mapped")⟩
      | .error e => ⟨false, s, m.note (.remark .warn s!"Cannot map expansion window: {e.message}")⟩

def handler : Handler Demo := ⟨"DemoMachine", device, notify⟩

/-- Once the window is mapped no range is left to map, so one accepted notification is all. -/
def limit : Nat := 1

end Demo
end MemoryBus
