/-! How a program ends, and the exit code that says so. -/
namespace MemoryBus.Command

inductive Status
  | success
  | failure
  /-- The command line was refused. -/
  | misuse
  deriving DecidableEq, Repr

def Status.code : Status → Nat
  | success => 0
  | failure => 1
  | misuse => 2

end MemoryBus.Command
