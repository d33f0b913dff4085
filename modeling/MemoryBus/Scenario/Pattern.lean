/-! Contents for test banks, and a short digest that tells contents apart. -/
namespace MemoryBus.Scenario

/-- A repeating slope of steps of 31 that also moves by one every 256 bytes. -/
def pattern (size seed : Nat) : ByteArray :=
  (List.range size).foldl (fun acc i => acc.push (seed + 31 * i + i / 256).toUInt8) .empty

/-- How many bytes are not zero, and a hash of where and what they are. -/
structure Digest where
  nonzero : Nat
  hash : UInt64
  deriving DecidableEq

namespace Digest

def empty : Digest := ⟨0, 0xcbf29ce484222325⟩

def add (d : Digest) (offset : Nat) (b : UInt8) : Digest :=
  if b = 0 then d
  else ⟨d.nonzero + 1, (d.hash ^^^ (offset * 256 + b.toNat).toUInt64) * 0x100000001b3⟩

def ofBytes (bytes : ByteArray) : Digest :=
  (bytes.foldl (fun (d, i) b => (add d i b, i + 1)) (empty, 0)).1

end Digest
end MemoryBus.Scenario
