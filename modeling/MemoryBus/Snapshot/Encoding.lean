import MemoryBus.Snapshot.Basic
import MemoryBus.Varint

/-! Snapshots as the bytes of a file: the version, the time as text, and each bank's name and
contents, with their lengths in front. -/
namespace MemoryBus.Snapshot

abbrev Reader (α : Type) := List UInt8 → Option (α × List UInt8)

/-- Bytes with their number in front. -/
def writeBytes (bytes : List UInt8) : List UInt8 := Varint.write bytes.length ++ bytes

def readBytes : Reader (List UInt8) := fun s => do
  let (n, s) ← Varint.read 8 s
  let taken := s.take n
  guard (taken.length = n)
  return (taken, s.drop n)

def writeText (text : String) : List UInt8 := writeBytes text.toUTF8.data.toList

def readText : Reader String := fun s => do
  let (bytes, s) ← readBytes s
  return (← String.fromUTF8? ⟨bytes.toArray⟩, s)

def writeBank (k : BankImage) : List UInt8 := writeText k.name ++ writeBytes k.bytes.data.toList

def readBank : Reader BankImage := fun s => do
  let (name, s) ← readText s
  let (bytes, s) ← readBytes s
  return (⟨name, ⟨bytes.toArray⟩⟩, s)

def readBanks : Nat → Reader (List BankImage)
  | 0, s => some ([], s)
  | n + 1, s => do
    let (k, s) ← readBank s
    let (rest, s) ← readBanks n s
    return (k :: rest, s)

def encode (s : Snapshot) : List UInt8 :=
  Varint.write s.version.toNat ++ writeText (String.ofList s.created.write) ++
    Varint.write s.banks.length ++ s.banks.flatMap writeBank

/-- The snapshot at the start of `s`, whatever its version; bytes after it are ignored. -/
def decode? (s : List UInt8) : Option Snapshot := do
  let (version, s) ← Varint.read 4 s
  let (text, s) ← readText s
  let created ← Timestamp.read? text.toList
  let (count, s) ← Varint.read 8 s
  let (banks, _) ← readBanks count s
  return ⟨version.toUInt32, created, banks⟩

/-- Reads a snapshot file, or says why there is none. -/
def load (file : Except FileError (List UInt8)) : Except MemoryError Snapshot :=
  match file with
  | .error e => .error (.file e)
  | .ok bytes =>
    match decode? bytes with
    | none => .error .unreadableSnapshot
    | some s => (s.checkVersion.mapError .snapshot).map fun _ => s

end MemoryBus.Snapshot
