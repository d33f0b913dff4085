import MemoryBus.Command.Diagnosis
import MemoryBus.Command.Settings
import MemoryBus.Snapshot.Encoding
import Std.Time.DateTime.Timestamp

/-! The program: reads its command line and its files, and writes what a run leaves. -/
namespace MemoryBus.Command

def fileError : IO.Error → FileError
  | .noFileOrDirectory .. => .notFound
  | e => .refused (toString e)

def readFile (path : String) : IO (Except FileError ByteArray) := do
  match ← (IO.FS.readBinFile path).toBaseIO with
  | .ok bytes => return .ok bytes
  | .error e => return .error (fileError e)

def writeFile (path : String) (bytes : List UInt8) : IO (Except FileError Unit) := do
  match ← (IO.FS.writeBinFile path ⟨bytes.toArray⟩).toBaseIO with
  | .ok () => return .ok ()
  | .error e => return .error (fileError e)

def now : IO Timestamp := do
  let t ← Std.Time.Timestamp.now
  return ⟨t.val.second.val, t.val.nano.val.toNat⟩

/-- Warns of a file of settings that is there but cannot be used. -/
def warnOfSettings : IO Unit := do
  let faulty := match ← readFile ".env" with
    | .error .notFound => false
    | .error _ => true
    | .ok bytes => (String.fromUTF8? bytes).elim true fun text => Settings.warns text.toList
  if faulty then IO.eprintln "Warning: Failed to load .env file"

/-- Runs the program and writes its snapshot. -/
def perform (e : Exercise) : IO Outcome := do
  let files ← e.reads.mapM fun path => return (path, ← readFile path)
  let outcome := e.run (fun path => (files.lookup path).getD (.error .notFound)) (← now)
  (← IO.getStdout).putStr (String.ofList outcome.output)
  match outcome.save with
  | none => return outcome
  | some (path, snapshot) => return outcome.saved (← writeFile path snapshot.encode)

end MemoryBus.Command

open MemoryBus.Command in
def main (line : List String) : IO UInt32 := do
  warnOfSettings
  match Exercise.ofLine? line with
  | none =>
    IO.eprintln "usage: vmacmem [-l LAYOUT] [-r ROM] [-n ACCESSES] [--json] [-s SNAPSHOT]"
    return Status.misuse.code.toUInt32
  | some e =>
    let outcome ← perform e
    if let some failure := outcome.failure then IO.eprintln s!"Error: {failure.diagnosis}"
    return outcome.status.code.toUInt32
