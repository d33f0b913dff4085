import MemoryBus.Command.Exercise
import MemoryBus.Scenario.Directory

/-! The program run from a command line in a directory. -/
namespace MemoryBus.Scenario

open Command

/-- What is seen of a run once it is over: there is no outcome when the command line was refused. -/
def runProgram (d : Directory) (line : List String) : Option Outcome :=
  (Exercise.ofLine? line).map fun e =>
    let outcome := e.run d.read ⟨0, 0⟩
    outcome.saved (outcome.save.elim (.ok ()) fun (path, _) => d.create path)

def statusOf (o : Option Outcome) : Status := o.elim .misuse Outcome.status

end MemoryBus.Scenario
