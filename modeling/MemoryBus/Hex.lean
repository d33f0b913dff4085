/-! Numbers and bytes in base sixteen. -/
namespace MemoryBus.Hex

def upper (n : Nat) : List Char := (Nat.toDigits 16 n).map Char.toUpper

/-- Upper-case digits after `0x`, with zeros in front up to eight places. -/
def padded (n : Nat) : String :=
  "0x" ++ String.ofList ((upper n).leftpad 8 '0')

def ofWord (w : UInt32) : String := padded w.toNat

/-- Two lower-case digits for each byte. -/
def ofBytes (bytes : List UInt8) : String :=
  String.ofList (bytes.flatMap fun b => [Nat.digitChar (b.toNat / 16), Nat.digitChar (b.toNat % 16)])

def digit? (c : Char) : Option Nat :=
  if '0' ≤ c ∧ c ≤ '9' then some (c.toNat - '0'.toNat)
  else if 'a' ≤ c ∧ c ≤ 'f' then some (c.toNat - 'a'.toNat + 10)
  else if 'A' ≤ c ∧ c ≤ 'F' then some (c.toNat - 'A'.toNat + 10)
  else none

/-- Pairs of digits; an odd digit at the end, or a character that is no digit, refuses the text. -/
def toBytes? : List Char → Option (List UInt8)
  | [] => some []
  | [_] => none
  | a :: b :: rest => do
    let high ← digit? a
    let low ← digit? b
    return (high * 16 + low).toUInt8 :: (← toBytes? rest)

end MemoryBus.Hex
