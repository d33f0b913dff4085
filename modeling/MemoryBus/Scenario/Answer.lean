import MemoryBus.Bus
import MemoryBus.Scenario.Pattern
import MemoryBus.Snapshot.Basic

/-! What a scenario's steps answer. -/
namespace MemoryBus.Scenario

/-- A call that the scripted core received. -/
inductive CoreCall
  | reset
  | irq (level : UInt8)
  | endTimeslice
  | modify (cycles : Int32)
  | execute (cycles : Int32)
  deriving DecidableEq

/-- What a core step returned, the calls it led to, and the registers after it. -/
structure CoreReport where
  value : Option Int32
  calls : List CoreCall
  pc : UInt32
  ssp : UInt32
  acc : UInt32
  remaining : Int32
  level : UInt8
  deriving DecidableEq

structure EntryReport where
  index : Nat
  range : Range
  last : Bool
  deriving DecidableEq

inductive Answer
  | nothing
  | truth (b : Bool)
  | number (n : Nat)
  | text (s : String)
  | bytes (bs : List UInt8)
  | range (e : EntryReport)
  | entries (es : List EntryReport)
  | numbers (ns : List Nat)
  | banks (ks : List (Nat × String × Nat))
  | place (bank offset : Nat)
  | digest (d : Digest)
  | tableStats (s : TableStats)
  | busStats (s : BusStats)
  | slots (s : Slots)
  | snapshot (s : Snapshot)
  | same (b : Bool)
  | core (r : CoreReport)
  /-- An entry found in a table, and whether it is now the first. -/
  | found (e : EntryReport) (first : Bool)
  | size (n : Nat) (isEmpty : Bool)
  | failure (e : MemoryError)
  deriving DecidableEq

namespace Answer

def isFailure : Answer → Bool
  | failure _ => true
  | _ => false

def ofOption {α : Type} (f : α → Answer) : Option α → Answer
  | some a => f a
  | none => nothing

end Answer

def entryReport (t : Table) (i : Nat) : EntryReport := ⟨i, t.entry i, t.isLast i⟩

def entryReports (t : Table) : List EntryReport := t.order.map (entryReport t)

end MemoryBus.Scenario
