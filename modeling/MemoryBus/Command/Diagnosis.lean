import MemoryBus.Command.Exercise
import MemoryBus.Printable

/-! The short form of a failure: its kind, with what it is about in parentheses or braces. -/
namespace MemoryBus.Command

/-- The digits of a code point in base sixteen, in braces. -/
def codePoint (c : Char) : List Char := '\\' :: 'u' :: '\x7b' :: (Nat.toDigits 16 c.toNat ++ ['\x7d'])

def escape (c : Char) : List Char :=
  match c with
  | '\x00' => ['\\', '0']
  | '\t' => ['\\', 't']
  | '\r' => ['\\', 'r']
  | '\n' => ['\\', 'n']
  | '"' => ['\\', '"']
  | '\\' => ['\\', '\\']
  | c => if isPrintable c then [c] else codePoint c

/-- A name in double quotes. -/
def quoted (s : String) : String := String.ofList ('"' :: (s.toList.flatMap escape ++ ['"']))

/-- A kind of failure with named facts. -/
def withFields (kind : String) (fields : List (String × String)) : String :=
  kind ++ " \x7b " ++ ", ".intercalate (fields.map fun (name, value) => name ++ ": " ++ value) ++ " \x7d"

def tableDiagnosis : TableError → String
  | .invalidGuard mask value => withFields "InvalidGuard" [("mask", s!"{mask}"), ("value", s!"{value}")]
  | .cacheableGuard => "CacheableGuard"
  | .missingBacking index => withFields "MissingBacking" [("index", s!"{index}")]
  | .unknownBank index bank => withFields "UnknownBank" [("index", s!"{index}"), ("bank", s!"{bank}")]
  | .backingOutOfBounds index bank last size =>
    withFields "BackingOutOfBounds"
      [("index", s!"{index}"), ("bank", s!"{bank}"), ("end", s!"{last}"), ("len", s!"{size}")]

def layoutDiagnosis : LayoutError → String
  | .unknownBank name => s!"UnknownBank({quoted name})"
  | .duplicateBank name => s!"DuplicateBank({quoted name})"
  | .emptyBank name => s!"EmptyBank({quoted name})"
  | .missingBank range => s!"MissingBank({quoted range})"

/-- The system's own words for a file are left out. -/
def memoryDiagnosis : MemoryError → String
  | .table e => s!"Table({tableDiagnosis e})"
  | .layout e => s!"Layout({layoutDiagnosis e})"
  | .image (.wrongSize expected got) =>
    withFields "InvalidRomSize" [("expected", s!"{expected}"), ("got", s!"{got}")]
  | .image (.notFound what) => s!"RomNotFound({quoted what})"
  | .snapshot e => s!"Snapshot({quoted e.message})"
  | .file _ => "Io"
  | .unreadableLayout => "Parse"
  | .unreadableSnapshot => "Decode"

def faultDiagnosis : Fault → String
  | .outsideBank bank offset => withFields "OutsideBank" [("bank", s!"{bank}"), ("offset", s!"{offset}")]
  | .unresolved address => withFields "Unresolved" [("address", s!"{address}")]

def Failure.diagnosis : Failure → String
  | .memory e => memoryDiagnosis e
  | .layout e => layoutDiagnosis e
  | .fault f => s!"Fault({faultDiagnosis f})"

end MemoryBus.Command
