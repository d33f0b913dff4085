import MemoryBus.Command.Arguments
import MemoryBus.Command.Status
import MemoryBus.Image
import MemoryBus.Layout.Decode
import MemoryBus.Machine.Demo
import MemoryBus.Machine.Trace
import MemoryBus.Snapshot.Basic
import MemoryBus.Stats

/-! The program itself: it runs the trace over a layout and tells how the memory was used. -/
namespace MemoryBus.Command

/-- What a run is asked to do. -/
structure Exercise where
  layout : Option String
  /-- The image for the bank that is named `rom`. -/
  image : Option String
  iterations : Nat
  json : Bool
  snapshot : Option String
  deriving DecidableEq, Repr

def defaultIterations : Nat := 100000

/-- A run that ends without success. -/
inductive Failure
  | memory (e : MemoryError)
  /-- The run needs something that its layout does not have. -/
  | layout (e : LayoutError)
  | fault (f : Fault)
  deriving DecidableEq, Repr

/-- What a run has printed, the snapshot that it goes on to write, and why it stopped, if it did. -/
structure Outcome where
  output : List Char
  save : Option (String × Snapshot)
  failure : Option Failure

namespace Exercise

def grammar : Grammar where
  options := [⟨"layout", some 'l', true⟩, ⟨"rom", some 'r', true⟩, ⟨"accesses", some 'n', true⟩,
    ⟨"json", none, false⟩, ⟨"snapshot", some 's', true⟩]
  positionalBound := some 0

def ofLine? (line : List String) : Option Exercise := do
  let args ← grammar.read? line
  let path (name : String) := args.value? name none fun s => (path? s).map some
  return ⟨← path "layout", ← path "rom", ← args.value? "accesses" defaultIterations natural?,
    args.has "json", ← path "snapshot"⟩

/-- The files that a run reads. -/
def reads (e : Exercise) : List String := e.layout.toList ++ e.image.toList

def loadLayout (e : Exercise) (files : Files) : Except MemoryError Layout :=
  match e.layout with
  | none => .ok .macPlus
  | some path => Layout.ofFile (files path)

/-- The bank of the image is looked up before its file. -/
def loadImage (e : Exercise) (files : Files) (m : MemoryMap) : Except Failure MemoryMap :=
  match e.image with
  | none => .ok m
  | some path =>
    match m.banks.find? "rom" with
    | none => .error (.layout (.unknownBank "rom"))
    | some bank =>
      match m.loadImage bank path ((files path).toOption.map .ofBytes) with
      | (.ok (), m) => .ok m
      | (.error e, _) => .error (.memory e)

/-- The demonstration machine over the layout, with the image in its bank and the table in force. -/
def prepare (e : Exercise) (files : Files) : Except Failure (Bus Demo) := do
  let layout ← (e.loadLayout files).mapError .memory
  let banks ← layout.buildBanks.mapError fun e => .memory (.layout e)
  let m ← e.loadImage files (.ofBanks banks)
  let m ← (Demo.remap layout m).mapError .memory
  return .attach Demo.handler m (.ofLayout layout)

def report (e : Exercise) (b : Bus Demo) (now : Timestamp) : Outcome :=
  let output := if e.json then b.stats.print ++ ['\n'] else []
  ⟨output, e.snapshot.map fun path => (path, b.map.snapshot now), none⟩

/-- A run up to the writing of its snapshot. -/
def run (e : Exercise) (files : Files) (now : Timestamp) : Outcome :=
  match e.prepare files with
  | .error failure => ⟨[], none, some failure⟩
  | .ok b =>
    match Trace.run Demo.handler Demo.limit e.iterations b with
    | .error fault => ⟨[], none, some (.fault fault)⟩
    | .ok b => e.report b now

end Exercise

namespace Outcome

/-- The same run, once it is known whether its snapshot could be written. -/
def saved (o : Outcome) (written : Except FileError Unit) : Outcome :=
  match o.save, written with
  | some _, .error e => { o with save := none, failure := some (.memory (.file e)) }
  | _, _ => o

def status (o : Outcome) : Status := if o.failure.isNone then .success else .failure

end Outcome
end MemoryBus.Command
