import MemoryBus.Scenario.MapRun
import MemoryBus.Handler

/-! A handler that plays a script: devices of a few kinds, and a list of actions for each notify
source. -/
namespace MemoryBus.Scenario

inductive DeviceMode
  | const
  /-- Each access adds one, and yields the sum. -/
  | counter
  /-- A write is remembered. -/
  | latch
  /-- Yields the address. -/
  | address
  deriving DecidableEq

structure Device where
  tag : UInt32
  mode : DeviceMode
  value : UInt32

namespace Device

/-- The reply, and the device afterwards. -/
def serve (d : Device) (q : Request) : UInt32 × Device :=
  match d.mode with
  | .const => (d.value, d)
  | .counter => (d.value + 1, { d with value := d.value + 1 })
  | .latch =>
    let value := match q.direction with
      | .read => d.value
      | .write => q.value
    (value, { d with value })
  | .address => (q.address, d)

end Device

/-- What a notify source does when its turn comes: steps on the map, and its answer if that is not
to hang on whether a step failed. -/
structure Action where
  steps : List MapStep
  result : Option Bool

/-- A call that the script received. -/
inductive Call
  | device (tag : UInt32) (request : Request) (reply : UInt32)
  | notify (tag : UInt32) (accepted : Bool) (results : List Answer)

structure Script where
  devices : List Device
  sources : List (UInt32 × List Action)
  /-- The latest first. -/
  calls : List Call

namespace Script

def silent : Handler Script := .silent "Script"

def device (s : Script) (r : Range) (q : Request) : DeviceReply Script :=
  match s.devices.findIdx? (·.tag == r.tag) with
  | none =>
    let reply := silent.device s r q
    { reply with state := { s with calls := .device r.tag q reply.value :: s.calls } }
  | some i =>
    match s.devices[i]? with
    | none => ⟨0, s, []⟩
    | some d =>
      let (value, d) := d.serve q
      ⟨value, { s with devices := s.devices.set i d, calls := .device r.tag q value :: s.calls }, []⟩

/-- The next action of a source, and the sources without it. -/
def next (tag : UInt32) : List (UInt32 × List Action) → Option (Action × List (UInt32 × List Action))
  | [] => none
  | (t, actions) :: rest =>
    match if t = tag then actions else [] with
    | a :: others => some (a, (t, others) :: rest)
    | [] => (next tag rest).map fun (a, rest) => (a, (t, actions) :: rest)

def perform (m : MemoryMap) (steps : List MapStep) : List Answer × MemoryMap :=
  let (answers, m) := steps.foldl (fun (answers, m) step =>
    let (answer, m) := step.run m
    (answer :: answers, m)) (([] : List Answer), m)
  (answers.reverse, m)

def notify (s : Script) (r : Range) (m : MemoryMap) : NotifyReply Script :=
  match next r.tag s.sources with
  | none =>
    let reply := silent.notify s r m
    { reply with state := { s with calls := .notify r.tag false [] :: s.calls } }
  | some (action, sources) =>
    let (results, m) := perform m action.steps
    let accepted := action.result.getD (!results.any Answer.isFailure)
    ⟨accepted, { s with sources, calls := .notify r.tag accepted results :: s.calls }, m⟩

def handler : Handler Script := ⟨"Script", device, notify⟩

/-- Each accepted notification uses an action up. -/
def limit (s : Script) : Nat := s.sources.foldl (fun n source => n + source.2.length) 0

end Script
end MemoryBus.Scenario
