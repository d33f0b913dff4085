import MemoryBus.Error
import MemoryBus.Layout.Basic

/-! The banks and the table that a layout describes. -/
namespace MemoryBus.Layout

def zeros (size : Nat) : ByteArray := ⟨Array.replicate size 0⟩

/-- What is wrong with a bank after those named before it. -/
def bankFault (before : List BankLayout) (k : BankLayout) : Option LayoutError :=
  if before.any (·.name == k.name) then some (.duplicateBank k.name)
  else if k.size = 0 then some (.emptyBank k.name)
  else none

/-- Adds zero-filled banks until one is faulty. `before` holds those already added, last first. -/
def allocate (before : List BankLayout) (acc : Banks) : List BankLayout → Banks × Option LayoutError
  | [] => (acc, none)
  | k :: rest =>
    match bankFault before k with
    | some e => (acc, some e)
    | none => allocate (k :: before) (acc.add k.name (zeros k.size)) rest

/-- The banks of a layout. That there is memory for banks of these sizes is taken as given: a layout is
refused for its faults only. -/
def buildBanks (l : Layout) : Except LayoutError Banks :=
  match allocate [] .empty l.banks with
  | (banks, none) => .ok banks
  | (_, some e) => .error e

/-- The table entry for a range, its bank found by name. -/
def buildRange (banks : Banks) (r : RangeLayout) : Except LayoutError Range :=
  let entry (backing : Option Backing) : Range := ⟨r.mask, r.value, r.capabilities, backing, r.tag⟩
  match r.bank with
  | some name =>
    match banks.find? name with
    | some bank => .ok (entry (some ⟨bank, r.base, r.useMask⟩))
    | none => .error (.unknownBank name)
  | none => if (entry none).isCacheable then .error (.missingBank r.name) else .ok (entry none)

/-- The ranges in the layout's order, ended by a guard that allows nothing. -/
def buildTable (l : Layout) (banks : Banks) : Except MemoryError Table := do
  let ranges ← (l.ranges.mapM (buildRange banks)).mapError .layout
  (Table.build ranges .guard).mapError .table

end MemoryBus.Layout
