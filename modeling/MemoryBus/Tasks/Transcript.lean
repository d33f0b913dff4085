import MemoryBus.Command.Status
import MemoryBus.Decimal

/-! What a task shows: the calls that it makes of the build tool, its output, and how it fails. -/
namespace MemoryBus.Tasks

/-- One run of the build tool, with the time that it took in hundredths of a second. -/
structure ToolRun where
  code : Nat
  output : List Char
  hundredths : Nat
  deriving DecidableEq, Repr

/-- What comes of calling the build tool, `none` if there is none to start. -/
abbrev Tool := List String → Option ToolRun

inductive TaskFailure
  | notStarted
  | exited (code : Nat)
  | failingRuns (names : List String)
  | layoutNotFound (path : String)
  | traceFailed (label : String) (code : Nat)
  | unreadableStats
  deriving DecidableEq, Repr

def TaskFailure.message : TaskFailure → String
  | notStarted => "No such file or directory (os error 2)"
  | exited code => s!"cargo exited with exit status: {code}"
  | failingRuns names => "failing test runs: " ++ ", ".intercalate names
  | layoutNotFound path => s!"layout not found: {path}"
  | traceFailed label code => s!"trace over {label} failed: exit status: {code}"
  | unreadableStats => "vmacmem did not print JSON stats"

structure Transcript where
  calls : List (List String)
  output : List Char
  failure : Option TaskFailure
  deriving DecidableEq, Repr

/-- A time in seconds with two places. -/
def seconds (hundredths : Nat) : List Char :=
  Decimal.digits (hundredths / 100) ++ '.' :: Decimal.padded 2 (hundredths % 100)

namespace Transcript

def empty : Transcript := ⟨[], [], none⟩

def print (t : Transcript) (text : List Char) : Transcript := { t with output := t.output ++ text }

def fail (t : Transcript) (e : TaskFailure) : Transcript := { t with failure := some e }

/-- Calls the build tool, which is a call only if there is a tool to start. -/
def call (t : Transcript) (tool : Tool) (arguments : List String) : Option ToolRun × Transcript :=
  match tool arguments with
  | some run => (some run, { t with calls := t.calls ++ [arguments] })
  | none => (none, t)

/-- Calls the build tool for its success only. -/
def succeed (t : Transcript) (tool : Tool) (arguments : List String) : Except TaskFailure Nat × Transcript :=
  match t.call tool arguments with
  | (none, t) => (.error .notStarted, t)
  | (some run, t) => (if run.code = 0 then .ok run.hundredths else .error (.exited run.code), t)

def status (t : Transcript) : Command.Status := if t.failure.isNone then .success else .failure

end Transcript
end MemoryBus.Tasks
