import MemoryBus.Hex
import MemoryBus.Request

/-! What happens to a memory, as a journal keeps it, and the line that a log shows for it. -/
namespace MemoryBus

inductive Level
  | error
  | warn
  | info
  | debug
  | trace
  deriving DecidableEq, Repr

def Level.name : Level → String
  | error => "ERROR"
  | warn => "WARN"
  | info => "INFO"
  | debug => "DEBUG"
  | trace => "TRACE"

inductive Event
  | allocated (bank : Nat) (name : String) (size : Nat)
  | attached (handler : String)
  | installed (entries : Nat)
  | promoted (range : Range) (depth : Nat) (address : UInt32)
  | deviceCalled (range : Range) (request : Request) (reply : UInt32)
  | notified (range : Range) (accepted : Bool)
  | declined (tag : UInt32) (direction : Direction) (address : UInt32)
  | unmapped (direction : Direction) (address : UInt32)
  | unhandledDevice (tag address : UInt32)
  | unhandledNotify (tag : UInt32)
  | imageLoaded (path bank : String)
  | snapshotSaved (banks size : Nat) (path : String)
  | snapshotRestored (banks : Nat)
  /-- A line that a machine or a program writes on its own account. -/
  | remark (level : Level) (text : String)
  deriving DecidableEq

namespace Event

def directionName : Direction → String
  | .read => "Read"
  | .write => "Write"

/-- The level and text of an event's log line. Calls to a handler leave no line of their own. -/
def message? : Event → Option (Level × String)
  | allocated bank name size => some (.debug, s!"Bank {bank} '{name}' allocated ({size} bytes)")
  | attached handler => some (.debug, s!"Memory subsystem created with handler '{handler}'")
  | installed entries => some (.debug, s!"Installed translation table ({entries} ranges)")
  | promoted range depth address =>
    let owner := s!"{Hex.ofWord range.mask}/{Hex.ofWord range.value}"
    some (.debug, s!"Promoted range {owner} from depth {depth} ({Hex.ofWord address})")
  | deviceCalled .. | notified .. => none
  | declined tag direction address =>
    some (.trace, s!"Notify (tag {tag}) declined for {directionName direction} at {Hex.ofWord address}")
  | unmapped direction address => some (.trace, s!"Unmapped {directionName direction} at {Hex.ofWord address}")
  | unhandledDevice tag address =>
    some (.trace, s!"Unhandled device access (tag {tag}) at {Hex.ofWord address}")
  | unhandledNotify tag => some (.trace, s!"Unhandled notify (tag {tag})")
  | imageLoaded path bank => some (.info, s!"Loaded {path} into bank '{bank}'")
  | snapshotSaved banks size path =>
    some (.info, s!"Saved memory snapshot ({banks} banks, {size} bytes) to {path}")
  | snapshotRestored banks => some (.debug, s!"Restored {banks} banks from snapshot")
  | remark level text => some (level, text)

def line? (e : Event) : Option String :=
  e.message?.map fun (level, text) => level.name ++ " " ++ text

end Event

/-- What has happened, the latest first. -/
abbrev Journal := List Event

/-- The log of a journal, the earliest line first. -/
def Journal.lines (j : Journal) : List String := (List.reverse j).filterMap Event.line?

end MemoryBus
