import MemoryBus.Scenario.ProgramRun
import MemoryBus.Tasks.Run

/-! A build tool that builds nothing: it fails where it is told to, and otherwise runs the program
or prints what it was given to print. -/
namespace MemoryBus.Scenario

open Command Tasks

structure ToolStub where
  directory : Directory
  /-- The exit codes of calls, by the beginnings of their command lines. -/
  failing : List (String × Nat)
  /-- What a run prints instead of running the program. -/
  stats : Option String
  /-- There is no tool to start. -/
  missing : Bool

namespace ToolStub

/-- The arguments behind the first separator. -/
def programLine (arguments : List String) : List String := (arguments.dropWhile (· != "--")).drop 1

def runProgram (s : ToolStub) (arguments : List String) : ToolRun :=
  let outcome := Scenario.runProgram s.directory (programLine arguments)
  ⟨(statusOf outcome).code, outcome.elim [] (·.output), 0⟩

def answer (s : ToolStub) (arguments : List String) : ToolRun :=
  let line := " ".intercalate arguments
  match s.failing.find? fun (start, _) => start.isPrefixOf line with
  | some (_, code) => ⟨code, [], 0⟩
  | none =>
    if arguments.head? = some "run" then
      match s.stats with
      | some text => ⟨0, text.toList, 0⟩
      | none => s.runProgram arguments
    else ⟨0, [], 0⟩

def tool (s : ToolStub) : Tool := fun arguments => if s.missing then none else some (s.answer arguments)

/-- The transcript of a task given by its command line, if it is one. -/
def runTask (s : ToolStub) (line : List String) : Option Transcript :=
  (Task.ofLine? line).map (·.run s.tool s.directory.isPresent)

/-- Two digits and no third. -/
def isHundredths (s : List Char) : Bool := (Decimal.spanUpTo 3 s).1.length == 2

/-- A text with every number of exactly two decimals replaced by `T`. The digits before `s` are held
back until it is known what follows them; `skip` characters have been replaced already. -/
def maskTimes (skip : Nat) (digits : List Char) : List Char → List Char
  | [] => digits
  | c :: s =>
    if 0 < skip then maskTimes (skip - 1) digits s
    else if c.isDigit then maskTimes 0 (digits ++ [c]) s
    else if c = '.' ∧ !digits.isEmpty ∧ isHundredths s then 'T' :: maskTimes 2 [] s
    else digits ++ c :: maskTimes 0 [] s

end ToolStub
end MemoryBus.Scenario
