import MemoryBus.Error
import MemoryBus.Timestamp

/-! Snapshots: the contents of every bank by name, taken from a map and put back into one. -/
namespace MemoryBus

structure BankImage where
  name : String
  bytes : ByteArray
  deriving DecidableEq

structure Snapshot where
  version : UInt32
  created : Timestamp
  banks : List BankImage
  deriving DecidableEq

namespace Snapshot

/-- The only version that is restored or loaded. -/
def currentVersion : UInt32 := 1

def size (s : Snapshot) : Nat := s.banks.foldl (fun n image => n + image.bytes.size) 0

def checkVersion (s : Snapshot) : Except SnapshotError Unit :=
  if s.version = currentVersion then .ok ()
  else .error (.incompatibleVersion currentVersion.toNat s.version.toNat)

end Snapshot

namespace MemoryMap

def snapshot (m : MemoryMap) (now : Timestamp) : Snapshot :=
  ⟨Snapshot.currentVersion, now, m.banks.toArray.toList.map fun k => ⟨k.name, k.bytes⟩⟩

/-- The bank that takes an image: the first of its name, if it has the image's size. -/
def target (banks : Banks) (image : BankImage) : Except SnapshotError Nat :=
  match banks.find? image.name with
  | none => .error (.unknownBank image.name)
  | some i =>
    let size := (banks.size? i).getD 0
    if size = image.bytes.size then .ok i else .error (.sizeMismatch image.name size image.bytes.size)

/-- Puts every image back, one after the other, once all of them are known to fit. -/
def restore (m : MemoryMap) (s : Snapshot) : Except SnapshotError MemoryMap := do
  s.checkVersion
  let targets ← s.banks.mapM (target m.banks)
  let banks := (targets.zip s.banks).foldl (fun acc (i, image) => acc.fill i image.bytes) m.banks
  return { m with banks }.note (.snapshotRestored s.banks.length)

end MemoryMap
end MemoryBus
