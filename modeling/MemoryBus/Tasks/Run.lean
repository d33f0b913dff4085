import MemoryBus.Stats
import MemoryBus.Tasks.Task
import MemoryBus.Tasks.Transcript

/-! Running the tasks. Stages that check stop at the first failure; test runs all have their turn. -/
namespace MemoryBus.Tasks

def left (width : Nat) (s : String) : List Char := s.toList.rightpad width ' '

def right (width : Nat) (s : List Char) : List Char := s.leftpad width ' '

/-- Runs a stage and reports on it; the time that it took if it succeeded. -/
def Stage.run (s : Stage) (tool : Tool) (t : Transcript) : Except TaskFailure Nat × Transcript :=
  let t := t.print ("→ ".toList ++ left 12 s.name)
  match t.succeed tool s.arguments with
  | (.ok time, t) => (.ok time, t.print ("ok (".toList ++ seconds time ++ "s)\n".toList))
  | (.error e, t) => (.error e, t.print "failed\n".toList)

def runChecks (tool : Tool) (total : Nat) (t : Transcript) : List Stage → Transcript
  | [] => t.print ("✓ all checks passed in ".toList ++ seconds total ++ "s\n".toList)
  | s :: rest =>
    match s.run tool t with
    | (.ok time, t) => runChecks tool (total + time) t rest
    | (.error e, t) => t.fail e

/-- The names of the runs that failed, with the transcript of all. -/
def runTests (tool : Tool) (t : Transcript) : List Stage → List String × Transcript
  | [] => ([], t)
  | s :: rest =>
    match s.run tool t with
    | (.ok _, t) => runTests tool t rest
    | (.error _, t) =>
      let (names, t) := runTests tool t rest
      (s.name :: names, t)

/-- How one traced layout did. -/
structure Row where
  label : String
  summary : TraceSummary
  hundredths : Nat

def label (layout : Option String) : String := layout.getD "mac-plus (built-in)"

def traceOne (tool : Tool) (iterations : Nat) (release : Bool) (layout : Option String) (t : Transcript) :
    Except TaskFailure Row × Transcript :=
  let name := label layout
  let t := t.print ("→ tracing ".toList ++ name.toList ++ ['\n'])
  match t.call tool (traceArguments iterations release layout) with
  | (none, t) => (.error .notStarted, t)
  | (some run, t) =>
    if run.code = 0 then
      match TraceSummary.parse? run.output with
      | some summary => (.ok ⟨name, summary, run.hundredths⟩, t)
      | none => (.error .unreadableStats, t)
    else (.error (.traceFailed name run.code), t)

def traceAll (tool : Tool) (iterations : Nat) (release : Bool) (t : Transcript) :
    List (Option String) → Except TaskFailure (List Row) × Transcript
  | [] => (.ok [], t)
  | layout :: rest =>
    match traceOne tool iterations release layout t with
    | (.error e, t) => (.error e, t)
    | (.ok row, t) =>
      let (rows, t) := traceAll tool iterations release t rest
      (rows.map (row :: ·), t)

/-- A line of the comparison: a name on the left and five columns on the right. -/
def line (name : String) (lookups probes promotions failed time : List Char) : List Char :=
  [' '].intercalate [left 32 name, right 10 lookups, right 10 probes, right 10 promotions, right 8 failed,
    right 8 time] ++ ['\n']

def heading : List Char :=
  line "layout" "lookups".toList "probes".toList "promoted".toList "failed".toList "secs".toList

def Row.print (r : Row) : List Char :=
  line r.label (Decimal.digits r.summary.lookups) (Decimal.digits r.summary.probes)
    (Decimal.digits r.summary.promotions) (Decimal.digits r.summary.failed) (seconds r.hundredths)

/-- Traces every layout and compares them, once all of them are known to be there. -/
def runTraces (tool : Tool) (present : String → Bool) (layouts : List String) (iterations : Nat)
    (release : Bool) : Transcript :=
  match layouts.find? (!present ·) with
  | some path => Transcript.empty.fail (.layoutNotFound path)
  | none =>
    let targets := if layouts.isEmpty then [none] else layouts.map some
    match traceAll tool iterations release .empty targets with
    | (.error e, t) => t.fail e
    | (.ok rows, t) => t.print ('\n' :: heading ++ rows.flatMap Row.print)

/-- A task with the build tool `tool`, where `present` tells which files there are. -/
def Task.run (tool : Tool) (present : String → Bool) : Task → Transcript
  | .check fix => runChecks tool 0 .empty (checkStages fix)
  | .test areas =>
    match runTests tool .empty (testStages areas) with
    | ([], t) => t
    | (names, t) => t.fail (.failingRuns names)
  | .bench group =>
    match Transcript.empty.succeed tool (benchArguments group) with
    | (.ok _, t) => t
    | (.error e, t) => t.fail e
  | .trace layouts iterations release => runTraces tool present layouts iterations release

end MemoryBus.Tasks
