import MemoryBus.Machine.Demo
import MemoryBus.Machine.Trace
import MemoryBus.Scenario.Script
import MemoryBus.Scenario.ScriptedCore
import MemoryBus.Snapshot.Encoding

/-! A whole memory with its handler and its core, set up and taken through steps. -/
namespace MemoryBus.Scenario

variable {σ : Type}

/-- A handler that a session can use: how many notifications it can still accept, and the calls
that it recorded. -/
structure Actor (σ : Type) where
  handler : Handler σ
  limit : σ → Nat
  takeCalls : σ → List Call × σ

namespace Actor

def silent (name : String) : Actor Unit := ⟨.silent name, fun _ => 0, fun s => ([], s)⟩

def demo : Actor Demo := ⟨Demo.handler, fun _ => Demo.limit, fun s => ([], s)⟩

def script : Actor Script :=
  ⟨Script.handler, Script.limit, fun s => (s.calls.reverse, { s with calls := [] })⟩

end Actor

/-- The memory that a session starts from: the banks and table of a layout, or banks one by one,
and then another table. -/
structure Setup where
  layout : Option LayoutSource
  banks : List (String × ByteArray)
  table : Option TablePlan

namespace Setup

/-- The layout's banks, as far as they could be allocated, and its table over them. -/
def layOut (l : Layout) : Option MemoryError × MemoryMap :=
  match Layout.allocate [] .empty l.banks with
  | (banks, some e) => (some (.layout e), .ofBanks banks)
  | (banks, none) =>
    match Scenario.installLayout (.ofBanks banks) l with
    | (.failure e, m) => (some e, m)
    | (_, m) => (none, m)

def start (s : Setup) (layout : Option Layout) : Option MemoryError × MemoryMap :=
  match layout with
  | some l => layOut l
  | none => (none, s.banks.foldl (fun m (name, bytes) => m.addBank name bytes) .empty)

def install (s : Setup) (m : MemoryMap) : Option MemoryError × MemoryMap :=
  match s.table with
  | none => (none, m)
  | some plan =>
    match installPlan m plan with
    | (.failure e, m) => (some e, m)
    | (_, m) => (none, m)

/-- The layout or the first failure, and the memory as far as it was set up. -/
def begin (s : Setup) : Except MemoryError (Option Layout) × MemoryMap :=
  match s.layout.mapM (·.load) with
  | .error e => (.error e, .empty)
  | .ok layout =>
    match s.start layout with
    | (some e, m) => (.error e, m)
    | (none, m) =>
      match s.install m with
      | (some e, m) => (.error e, m)
      | (none, m) => (.ok layout, m)

end Setup

structure Session (σ : Type) where
  bus : Bus σ
  layout : Option Layout
  snapshots : List (String × Snapshot)
  cpu : Option (Cpu ScriptedCore)

/-- What one step shows. -/
structure Report where
  answer : Answer
  calls : List Call
  journal : Journal
  order : List Nat
  stats : BusStats
  slots : Slots

namespace Session

def create (actor : Actor σ) (m : MemoryMap) (state : σ) (layout : Option Layout)
    (cpu : Option (Cpu ScriptedCore × List Event)) : Session σ :=
  let bus := (cpu.elim [] (·.2)).foldl Bus.note (Bus.attach actor.handler m state)
  ⟨bus, layout, [], cpu.map (·.1)⟩

/-- Empties the journal. -/
def takeJournal (s : Session σ) : Journal × Session σ :=
  let ⟨⟨map, state, dispatch⟩, layout, snapshots, cpu⟩ := s
  (map.journal, ⟨⟨{ map with journal := [] }, state, dispatch⟩, layout, snapshots, cpu⟩)

def named? (s : Session σ) (name : String) : Option Snapshot := (s.snapshots.find? (·.1 == name)).map (·.2)

def noSnapshot : Answer := .text "no such snapshot"

variable (actor : Actor σ)

/-- Uses the bus for a value. -/
def useBus (s : Session σ) (f : Bus σ → Except Fault (Answer × Bus σ)) : Except Fault (Answer × Session σ) :=
  let ⟨bus, layout, snapshots, cpu⟩ := s
  (f bus).map fun (answer, bus) => (answer, ⟨bus, layout, snapshots, cpu⟩)

/-- Uses the memory map. -/
def useMap (s : Session σ) (f : MemoryMap → Answer × MemoryMap) : Answer × Session σ :=
  let ⟨⟨map, state, dispatch⟩, layout, snapshots, cpu⟩ := s
  let (answer, map) := f map
  (answer, ⟨⟨map, state, dispatch⟩, layout, snapshots, cpu⟩)

/-- The value of a core step, with the core and the bus after it. -/
def runCore (o : Core ScriptedCore σ) (c : Cpu ScriptedCore) (b : Bus σ) :
    CpuStep → Except Fault (Option Int32 × Cpu ScriptedCore × Bus σ)
  | .reset => (c.reset o b).map fun result => (none, result)
  | .setLevel level =>
    let (c, events) := c.setLevel o level
    .ok (none, c, events.foldl Bus.note b)
  | .run host => (c.run o b host).map fun (taken, result) => (some taken, result)
  | .remaining =>
    let (left, c) := c.remaining o
    .ok (some left, c, b)
  | .setRemaining host => .ok (none, c.setRemaining o host, b)
  | .putRemaining remaining => .ok (none, { c with core := { c.core with remaining } }, b)
  | .putPc pc => .ok (none, { c with core := { c.core with pc } }, b)

/-- Uses the core and the bus, if there is a core. -/
def useCore (s : Session σ) (step : CpuStep) : Except Fault (Answer × Session σ) :=
  let limit := actor.limit s.bus.state
  let ⟨bus, layout, snapshots, cpu⟩ := s
  match cpu with
  | none => .ok (.nothing, ⟨bus, layout, snapshots, none⟩)
  | some c =>
    (runCore (ScriptedCore.core actor.handler limit) c bus step).map fun (value, c, bus) =>
      let (report, c) := reportCore value c
      (.core report, ⟨bus, layout, snapshots, some c⟩)

/-- Expands the session's layout, which stays expanded even if it cannot be installed. -/
def expand (s : Session σ) (range bank : String) (useMask : UInt32) : Answer × Session σ :=
  match s.layout.bind (·.expanded range bank useMask) with
  | none => (.text "no such notify range", s)
  | some l => useMap { s with layout := some l } (Scenario.installLayout · l)

/-- Whether a snapshot comes back from its file unchanged. -/
def reload (s : Snapshot) : Answer :=
  match Snapshot.load (.ok s.encode) with
  | .ok loaded => .same (loaded == s)
  | .error e => .failure e

def savedPath : String := "memory.snap"

def runStep (s : Session σ) (step : Step) : Except Fault (Answer × Session σ) :=
  let h := actor.handler
  let limit := actor.limit s.bus.state
  match step with
  | .map step => .ok (s.useMap fun m => step.run m)
  | .cpu step => useCore actor s step
  | .readByte a => s.useBus fun b => (b.readByte h limit a).map fun (v, b) => (.number v.toNat, b)
  | .readWord a => s.useBus fun b => (b.readWord h limit a).map fun (v, b) => (.number v.toNat, b)
  | .readLong a => s.useBus fun b => (b.readLong h limit a).map fun (v, b) => (.number v.toNat, b)
  | .writeByte a v => s.useBus fun b => (b.writeByte h limit a v).map fun b => (.nothing, b)
  | .writeWord a v => s.useBus fun b => (b.writeWord h limit a v).map fun b => (.nothing, b)
  | .writeLong a v => s.useBus fun b => (b.writeLong h limit a v).map fun b => (.nothing, b)
  | .stats => .ok (.busStats s.bus.stats, s)
  | .resetStats => s.useBus fun b => .ok (.nothing, b.resetStats)
  | .handlerName => .ok (.text h.name, s)
  | .askDevice r q => s.useBus fun b =>
    let (v, b) := b.callDevice h r q
    .ok (.number v.toNat, b)
  | .trace n => s.useBus fun b => (Trace.run h limit n b).map fun b => (.nothing, b)
  | .expand range bank useMask => .ok (s.expand range bank useMask)
  | .snapshot name =>
    let taken := s.bus.map.snapshot ⟨0, 0⟩
    .ok (.snapshot taken, { s with snapshots := (name, taken) :: s.snapshots })
  | .restoreNamed name =>
    match s.named? name with
    | some taken => .ok (s.useMap fun m => outcome m ((m.restore taken).mapError .snapshot))
    | none => .ok (noSnapshot, s)
  | .save name =>
    match s.named? name with
    | some taken =>
      let saved := Event.snapshotSaved taken.banks.length taken.size savedPath
      .ok (reload taken, { s with bus := s.bus.note saved })
    | none => .ok (noSnapshot, s)

/-- Takes one step, and empties the journal and the recorded calls. -/
def advance (s : Session σ) (step : Step) : Except Fault (Report × Session σ) := do
  let (answer, s) ← runStep actor s step
  let (journal, s) := s.takeJournal
  let (calls, state) := actor.takeCalls s.bus.state
  let s := { s with bus := { s.bus with state } }
  return (⟨answer, calls, journal, s.bus.map.table.order, s.bus.stats, s.bus.map.slots⟩, s)

/-- The report of each step. A fault ends the session. -/
def runAll (s : Session σ) : List Step → List (Except Fault Report)
  | [] => []
  | step :: rest =>
    match advance actor s step with
    | .ok (report, s) => .ok report :: s.runAll rest
    | .error f => [.error f]

end Session
end MemoryBus.Scenario
