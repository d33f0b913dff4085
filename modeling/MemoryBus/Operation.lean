import MemoryBus.Bus
import MemoryBus.Image
import MemoryBus.Snapshot.Basic

/-! Everything that a program does to a memory, step by step. -/
namespace MemoryBus

variable {σ : Type}

/-- The accesses that a bus offers. -/
structure Port (σ : Type) where
  readByte : Bus σ → UInt32 → Except Fault (UInt8 × Bus σ)
  readWord : Bus σ → UInt32 → Except Fault (UInt16 × Bus σ)
  readLong : Bus σ → UInt32 → Except Fault (UInt32 × Bus σ)
  writeByte : Bus σ → UInt32 → UInt8 → Except Fault (Bus σ)
  writeWord : Bus σ → UInt32 → UInt16 → Except Fault (Bus σ)
  writeLong : Bus σ → UInt32 → UInt32 → Except Fault (Bus σ)

/-- The accesses through the slots. -/
def Bus.port (h : Handler σ) (limit : Nat) : Port σ where
  readByte b a := b.readByte h limit a
  readWord b a := b.readWord h limit a
  readLong b a := b.readLong h limit a
  writeByte b a v := b.writeByte h limit a v
  writeWord b a v := b.writeWord h limit a v
  writeLong b a v := b.writeLong h limit a v

inductive Operation
  | readByte (address : UInt32)
  | readWord (address : UInt32)
  | readLong (address : UInt32)
  | writeByte (address : UInt32) (value : UInt8)
  | writeWord (address : UInt32) (value : UInt16)
  | writeLong (address value : UInt32)
  | find (address : UInt32)
  | install (table : Table)
  /-- Installs the table that is installed. -/
  | reinstall
  | addBank (name : String) (bytes : ByteArray)
  | overwriteBank (bank offset : Nat) (bytes : List UInt8)
  | restore (snapshot : Snapshot)
  | loadImage (bank : Nat) (path : String) (file : Option ImageFile)
  | resetStats

/-- What an operation answers. -/
inductive Operation.Reply
  | byte (v : UInt8)
  | word (v : UInt16)
  | long (v : UInt32)
  | found (r : Range)
  | done
  | refused (e : MemoryError)
  deriving DecidableEq

namespace Operation

/-- The answer to a result that has nothing to show. -/
def Reply.ofResult : Except MemoryError Unit → Reply
  | .ok () => done
  | .error e => refused e

/-- An access or a lookup, which leaves the choice of the table to the handler. -/
def isAccess : Operation → Bool
  | readByte _ | readWord _ | readLong _ | writeByte .. | writeWord .. | writeLong .. | find _ => true
  | _ => false

/-- Puts a changed map in force, or says why there is none. -/
def settle (b : Bus σ) : Except MemoryError MemoryMap → Reply × Bus σ
  | .ok map => (.done, { b with map })
  | .error e => (.refused e, b)

def perform (p : Port σ) (b : Bus σ) : Operation → Except Fault (Reply × Bus σ)
  | readByte a => (p.readByte b a).map fun (v, b) => (.byte v, b)
  | readWord a => (p.readWord b a).map fun (v, b) => (.word v, b)
  | readLong a => (p.readLong b a).map fun (v, b) => (.long v, b)
  | writeByte a v => (p.writeByte b a v).map fun b => (.done, b)
  | writeWord a v => (p.writeWord b a v).map fun b => (.done, b)
  | writeLong a v => (p.writeLong b a v).map fun b => (.done, b)
  | find a => .ok (.found (b.find a).1.range, (b.find a).2)
  | install t => .ok (settle b ((b.map.install t).mapError .table))
  | reinstall => .ok (settle b ((b.map.install b.map.table).mapError .table))
  | addBank name bytes => .ok (.done, { b with map := b.map.addBank name bytes })
  | overwriteBank i offset bytes => .ok (.done, { b with map := b.map.overwriteBank i offset bytes })
  | restore s => .ok (settle b ((b.map.restore s).mapError .snapshot))
  | loadImage i path file =>
    let (result, map) := b.map.loadImage i path file
    .ok (.ofResult result, { b with map })
  | resetStats => .ok (.done, b.resetStats)

/-- The answers of operations performed one after the other. A fault ends the run. -/
def run (p : Port σ) (b : Bus σ) : List Operation → Except Fault (List Reply × Bus σ)
  | [] => .ok ([], b)
  | op :: rest => do
    let (answer, b) ← op.perform p b
    let (answers, b) ← run p b rest
    return (answer :: answers, b)

end Operation
end MemoryBus
