import MemoryBus.Bank
import MemoryBus.Event
import MemoryBus.Table

/-! The memory map: banks, the table installed over them, and the slots filled from that table. -/
namespace MemoryBus

/-- Why an image was not loaded. -/
inductive ImageError
  | notFound (what : String)
  | wrongSize (expected got : Nat)
  deriving DecidableEq, Repr

def ImageError.message : ImageError → String
  | notFound what => s!"ROM file not found: {what}"
  | wrongSize expected got => s!"Invalid ROM size: {got} bytes (expected {expected})"

/-- A lookup that reorders the list is worth a line. -/
def Lookup.event? (found : Lookup) (a : UInt32) : Option Event :=
  if found.promoted then some (.promoted found.range found.depth a) else none

structure MemoryMap where
  table : Table
  slots : Slots
  banks : Banks
  /-- The counters of the tables that were installed before this one. -/
  retired : TableStats
  journal : Journal
  deriving DecidableEq, Inhabited

namespace MemoryMap

/-- A map over `banks` with only a guard; its journal begins with their allocation. -/
def ofBanks (banks : Banks) : MemoryMap :=
  let allocations := banks.toArray.toList.zipIdx.map fun (k, i) => Event.allocated i k.name k.bytes.size
  ⟨.guardOnly, .empty, banks, .zero, allocations.reverse⟩

def empty : MemoryMap := ofBanks .empty

def note (m : MemoryMap) (e : Event) : MemoryMap := { m with journal := e :: m.journal }

/-- Looks an address up in the installed table, which may reorder it. -/
def find (m : MemoryMap) (a : UInt32) : Lookup × MemoryMap :=
  let (found, table) := m.table.find a
  (found, { m with table, journal := (found.event? a).toList ++ m.journal })

/-- Puts a table in force and empties the slots, once the table is known to stay inside the banks. -/
def install (m : MemoryMap) (t : Table) : Except TableError MemoryMap := do
  t.check m.banks.sizes
  let m := { m with table := t, slots := .empty, retired := m.retired.add m.table.stats }
  return m.note (.installed t.size)

/-- Installs a new table built from the installed one's list. -/
def rebuild (m : MemoryMap) : Except TableError MemoryMap := do
  m.install (← m.table.rebuild)

def addBank (m : MemoryMap) (name : String) (bytes : ByteArray) : MemoryMap :=
  let index := m.banks.count
  let size := bytes.size
  { m with banks := m.banks.add name bytes }.note (.allocated index name size)

def overwriteBank (m : MemoryMap) (i offset : Nat) (bytes : List UInt8) : MemoryMap :=
  { m with banks := m.banks.overwriteBank i offset bytes }

def writeByte (m : MemoryMap) (bank offset : Nat) (v : UInt8) : Except Fault MemoryMap :=
  if m.banks.holds bank offset then .ok { m with banks := m.banks.setByte bank offset v }
  else .error (.outsideBank bank offset)

def writeWord (m : MemoryMap) (bank offset : Nat) (v : UInt16) : Except Fault MemoryMap := do
  (← m.writeByte bank offset (BigEndian.wordHigh v)).writeByte bank (offset + 1) (BigEndian.wordLow v)

/-- Counters over every table that the map has held. -/
def tableStats (m : MemoryMap) : TableStats := m.retired.add m.table.stats

def resetStats (m : MemoryMap) : MemoryMap := { m with retired := .zero, table := m.table.resetStats }

end MemoryMap
end MemoryBus
