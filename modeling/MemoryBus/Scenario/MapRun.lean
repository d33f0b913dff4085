import MemoryBus.Image
import MemoryBus.Layout.Decode
import MemoryBus.Scenario.Answer
import MemoryBus.Scenario.Step

/-! Steps on a memory map. -/
namespace MemoryBus.Scenario

namespace LayoutSource

def load : LayoutSource → Except MemoryError Layout
  | builtIn => .ok .macPlus
  | text s => Layout.ofText s
  | value l => .ok l

end LayoutSource

namespace TablePlan

/-- Looks each address up in turn; what happened, the latest first. -/
def lookUpAll (t : Table) (addresses : List UInt32) : Table × Journal :=
  addresses.foldl (fun (t, j) a =>
    let (found, t) := t.find a
    (t, found.event? a |>.toList.append j)) (t, [])

def build (p : TablePlan) : Except TableError (Table × Journal) :=
  (Table.build p.ranges p.guard).map fun t => lookUpAll t p.finds

end TablePlan

/-- Puts what `result` holds in force, or says why it is not. -/
def outcome (m : MemoryMap) (result : Except MemoryError MemoryMap) : Answer × MemoryMap :=
  match result with
  | .ok m => (.nothing, m)
  | .error e => (.failure e, m)

def installPlan (m : MemoryMap) (p : TablePlan) : Answer × MemoryMap :=
  match p.build with
  | .error e => (.failure (.table e), m)
  | .ok (t, events) =>
    let m := { m with journal := events ++ m.journal }
    outcome m ((m.install t).mapError .table)

def installLayout (m : MemoryMap) (l : Layout) : Answer × MemoryMap :=
  outcome m do (m.install (← l.buildTable m.banks)).mapError .table

def bankReports (s : Banks) : List (Nat × String × Nat) :=
  s.toArray.toList.zipIdx.map fun (k, i) => (i, k.name, k.bytes.size)

namespace MapStep

def run (m : MemoryMap) : MapStep → Answer × MemoryMap
  | find a =>
    let (found, m) := m.find a
    (.range (entryReport m.table found.index), m)
  | install plan => installPlan m plan
  | reinstall => outcome m ((m.install m.table).mapError .table)
  | rebuild => outcome m (m.rebuild.mapError .table)
  | installLayout source =>
    match source.load with
    | .ok l => Scenario.installLayout m l
    | .error e => (.failure e, m)
  | addBank name bytes => (.number m.banks.count, m.addBank name bytes)
  | bankFind name => (.ofOption .number (m.banks.find? name), m)
  | bankName i => (.ofOption .text (m.banks.name? i), m)
  | bankSize i => (.ofOption .number (m.banks.size? i), m)
  | bankCount => (.number m.banks.count, m)
  | banks => (.banks (bankReports m.banks), m)
  | bankRead i offset count =>
    (.ofOption (fun bytes => .bytes (bytes.extract offset (offset + count)).data.toList) (m.banks.bytes? i), m)
  | bankWrite i offset bytes => (.truth (i < m.banks.count), m.overwriteBank i offset bytes)
  | bankDigest i => (.ofOption (fun bytes => .digest (.ofBytes bytes)) (m.banks.bytes? i), m)
  | loadImage i file =>
    let path := if file.isSome then "image.rom" else "missing.rom"
    match m.loadImage i path (file.map .ofBytes) with
    | (.ok (), m) => (.nothing, m)
    | (.error e, m) => (.failure e, m)
  | order => (.numbers m.table.order, m)
  | entries => (.entries (entryReports m.table), m)
  | head => (.number m.table.head, m)
  | tableSize => (.number m.table.size, m)
  | mapStats => (.tableStats m.tableStats, m)
  | tableStats => (.tableStats m.table.stats, m)
  | slots => (.slots m.slots, m)
  | translate d w a =>
    (.ofOption (fun (bank, offset) => .place bank offset) ((m.slots.get d w).translate a), m)
  | restore s => outcome m ((m.restore s).mapError .snapshot)

end MapStep
end MemoryBus.Scenario
