import MemoryBus.Map

/-! Everything that can go wrong while a memory is set up, and the words for it. -/
namespace MemoryBus

inductive LayoutError
  | unknownBank (name : String)
  | duplicateBank (name : String)
  | emptyBank (name : String)
  | missingBank (range : String)
  deriving DecidableEq, Repr

def LayoutError.message : LayoutError → String
  | unknownBank name => s!"Unknown bank name: {name}"
  | duplicateBank name => s!"Duplicate bank name: {name}"
  | emptyBank name => s!"Bank {name} has zero size"
  | missingBank range => s!"Range {range} is cacheable but names no bank"

inductive SnapshotError
  | incompatibleVersion (expected got : Nat)
  | unknownBank (name : String)
  | sizeMismatch (name : String) (size image : Nat)
  deriving DecidableEq, Repr

def SnapshotError.message : SnapshotError → String
  | incompatibleVersion expected got => s!"Incompatible snapshot version: expected {expected}, got {got}"
  | unknownBank name => s!"Unknown bank in snapshot: {name}"
  | sizeMismatch name size image => s!"Bank {name} is {size} bytes, snapshot holds {image}"

/-- Why a file was of no use. -/
inductive FileError
  | notFound
  /-- The file is not text. -/
  | invalidData
  /-- The file cannot be read or written, or not as far as it must be. -/
  | refused (reason : String)
  deriving DecidableEq, Repr

def FileError.message : FileError → String
  | notFound => "No such file or directory (os error 2)"
  | invalidData => "stream did not contain valid UTF-8"
  | refused reason => reason

/-- What there is to read under a path. -/
abbrev Files := String → Except FileError ByteArray

inductive MemoryError
  | table (e : TableError)
  | layout (e : LayoutError)
  | image (e : ImageError)
  | snapshot (e : SnapshotError)
  | file (e : FileError)
  /-- A layout's text could not be read. -/
  | unreadableLayout
  /-- A snapshot's bytes could not be read. -/
  | unreadableSnapshot
  deriving DecidableEq, Repr

def MemoryError.message : MemoryError → String
  | table e => "Translation table error: " ++ e.message
  | layout e => "Layout error: " ++ e.message
  | image e => e.message
  | snapshot e => "Snapshot error: " ++ e.message
  | file e => "I/O error: " ++ e.message
  | unreadableLayout => "Parse error"
  | unreadableSnapshot => "Snapshot decode error"

end MemoryBus
