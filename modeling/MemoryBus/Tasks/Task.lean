import MemoryBus.Command.Exercise

/-! The tasks of a developer, and the build tool's arguments for each of their stages. -/
namespace MemoryBus.Tasks

open Command

inductive TestArea
  | memory
  | cpu
  | integration
  | doc
  deriving DecidableEq, Repr

inductive Task
  | check (fix : Bool)
  /-- Without an area all tests are run. -/
  | test (areas : List TestArea)
  | bench (group : Option String)
  /-- Without a layout the built-in one is traced. -/
  | trace (layouts : List String) (iterations : Nat) (release : Bool)
  deriving DecidableEq, Repr

/-- One call of the build tool, under the name that it is reported with. -/
structure Stage where
  name : String
  arguments : List String
  deriving DecidableEq, Repr

namespace TestArea

def all : List TestArea := [memory, cpu, integration, doc]

def name : TestArea → String
  | memory => "memory"
  | cpu => "cpu"
  | integration => "integration"
  | doc => "doc"

def arguments : TestArea → List String
  | memory => ["test", "--lib", "core::memory"]
  | cpu => ["test", "--lib", "core::cpu"]
  | integration => ["test", "--test", "integration_test"]
  | doc => ["test", "--doc"]

def stage (a : TestArea) : Stage := ⟨a.name, a.arguments⟩

end TestArea

def checkStages (fix : Bool) : List Stage :=
  [⟨"fmt", ["fmt", "--all"] ++ if fix then [] else ["--", "--check"]⟩,
    ⟨"clippy", ["clippy", "--all-targets"] ++
      if fix then ["--fix", "--allow-dirty"] else ["--", "-D", "warnings"]⟩,
    ⟨"test", ["test", "--workspace"]⟩]

def testStages : List TestArea → List Stage
  | [] => [⟨"all", ["test"]⟩]
  | areas => areas.map TestArea.stage

def benchArguments (group : Option String) : List String :=
  ["bench", "--bench", "access_bench"] ++ group.elim [] fun name => ["--", name]

/-- What follows the separator goes to the traced program. -/
def traceArguments (iterations : Nat) (release : Bool) (layout : Option String) : List String :=
  ["run", "--quiet", "--bin", "vmacmem"] ++ (if release then ["--release"] else []) ++
    ["--", "--json", "-n", s!"{iterations}"] ++ layout.elim [] fun path => ["--layout", path]

namespace Task

def flag (name : String) : NamedOption := ⟨name, none, false⟩

def check? (line : List String) : Option Task := do
  let args ← Grammar.read? ⟨[flag "fix"], some 0⟩ line
  return check (args.has "fix")

/-- The areas are run in their own order, not in that of the command line. -/
def test? (line : List String) : Option Task := do
  let args ← Grammar.read? ⟨TestArea.all.map fun a => flag a.name, some 0⟩ line
  return test (TestArea.all.filter fun a => args.has a.name)

def bench? (line : List String) : Option Task := do
  let args ← Grammar.read? ⟨[], some 1⟩ line
  return bench args.positionals.head?

def trace? (line : List String) : Option Task := do
  let args ← Grammar.read? ⟨[⟨"accesses", some 'n', true⟩, flag "release"], none⟩ line
  let layouts ← args.positionals.mapM path?
  let iterations ← args.value? "accesses" defaultIterations natural?
  return trace layouts iterations (args.has "release")

/-- The task that a command line names by its first word. -/
def ofLine? : List String → Option Task
  | "check" :: line => check? line
  | "test" :: line => test? line
  | "bench" :: line => bench? line
  | "trace" :: line => trace? line
  | _ => none

end Task
end MemoryBus.Tasks
