import MemoryBus.Bus
import MemoryBus.Json.Printer
import MemoryBus.Json.Reader

/-! The counters of a bus as JSON, and the few of them that a comparison of traces reads back. -/
namespace MemoryBus

def BusStats.fields (s : BusStats) : List (String × Nat) :=
  [("lookups", s.table.lookups), ("probes", s.table.probes), ("promotions", s.table.promotions),
    ("device_accesses", s.dispatch.deviceAccesses), ("notifications", s.dispatch.notifications),
    ("rejected_notifications", s.dispatch.rejected), ("failed_accesses", s.dispatch.failed)]

def BusStats.print (s : BusStats) : List Char := Json.printObject s.fields

structure TraceSummary where
  lookups : Nat
  probes : Nat
  promotions : Nat
  failed : Nat
  deriving DecidableEq, Repr

namespace TraceSummary

/-- A field that is missing, or not a natural number, counts as zero. -/
def field (v : Json.Value) (name : String) : Nat := ((v.get? name).bind (·.natural?)).getD 0

def ofValue (v : Json.Value) : TraceSummary :=
  ⟨field v "lookups", field v "probes", field v "promotions", field v "failed_accesses"⟩

def parse? (s : List Char) : Option TraceSummary := (Json.read? s).map ofValue

end TraceSummary
end MemoryBus
