/-! Whole numbers in as few bytes as fit: one byte up to 250, else a marker and two, four or eight
bytes, the lowest first. -/
namespace MemoryBus.Varint

/-- The `count` lowest bytes of a number, the lowest first. -/
def littleEndian : Nat → Nat → List UInt8
  | 0, _ => []
  | count + 1, n => n.toUInt8 :: littleEndian count (n / 256)

def ofLittleEndian : List UInt8 → Nat
  | [] => 0
  | b :: rest => b.toNat + 256 * ofLittleEndian rest

/-- Numbers of more than eight bytes have no form. -/
def write (n : Nat) : List UInt8 :=
  if n < 251 then [n.toUInt8]
  else if n < UInt16.size then 251 :: littleEndian 2 n
  else if n < UInt32.size then 252 :: littleEndian 4 n
  else 253 :: littleEndian 8 n

/-- The `count` bytes at the start of `s` as a number, and what follows them. -/
def readBytes (count : Nat) (s : List UInt8) : Option (Nat × List UInt8) :=
  let taken := s.take count
  if taken.length = count then some (ofLittleEndian taken, s.drop count) else none

/-- A number of at most `width` bytes. Longer forms than needed are read too. -/
def read (width : Nat) : List UInt8 → Option (Nat × List UInt8)
  | [] => none
  | marker :: s =>
    if marker < 251 then some (marker.toNat, s)
    else if marker = 251 ∧ 2 ≤ width then readBytes 2 s
    else if marker = 252 ∧ 4 ≤ width then readBytes 4 s
    else if marker = 253 ∧ 8 ≤ width then readBytes 8 s
    else none

end MemoryBus.Varint
