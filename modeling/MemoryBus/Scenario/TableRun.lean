import MemoryBus.Scenario.MapRun

/-! Steps on a table that stands alone. -/
namespace MemoryBus.Scenario

/-- A table and the copies kept of it, the last first. -/
structure TableSession where
  table : Table
  kept : List Table

namespace TableStep

def run (s : TableSession) : TableStep → Answer × TableSession
  | find a =>
    let (found, table) := s.table.find a
    (.found (entryReport table found.index) (table.head == found.index), { s with table })
  | entries => (.entries (entryReports s.table), s)
  | size => (.size s.table.size false, s)
  | resetStats => (.nothing, { s with table := s.table.resetStats })
  | push => (.nothing, { s with kept := s.table :: s.kept })
  | pop =>
    match s.kept with
    | [] => (.truth false, s)
    | table :: kept => (.truth true, ⟨table, kept⟩)
  | check sizes =>
    match s.table.check sizes with
    | .ok () => (.nothing, s)
    | .error e => (.failure (.table e), s)

/-- Each step's answer with the table after it, and the table at the end. -/
def runAll (t : Table) (steps : List TableStep) : List (Answer × Table) × Table :=
  let (answers, s) := steps.foldl (fun (answers, s) step =>
    let (answer, s) := run s step
    ((answer, s.table) :: answers, s)) ([], (⟨t, []⟩ : TableSession))
  (answers.reverse, s.table)

end TableStep
end MemoryBus.Scenario
