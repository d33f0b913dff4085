/-! Numbers in base ten. -/
namespace MemoryBus.Decimal

def digits (n : Nat) : List Char := Nat.toDigits 10 n

/-- Digits with zeros in front up to `width` places. -/
def padded (width n : Nat) : List Char := (digits n).leftpad width '0'

def digitValue (c : Char) : Nat := c.toNat - '0'.toNat

def value (s : List Char) : Nat := s.foldl (fun n c => 10 * n + digitValue c) 0

/-- The digits at the start of `s`, and what follows them. -/
def span (s : List Char) : List Char × List Char := s.span Char.isDigit

/-- The same, but no more than `most` digits. -/
def spanUpTo : Nat → List Char → List Char × List Char
  | most + 1, c :: s =>
    if c.isDigit then
      let (ds, rest) := spanUpTo most s
      (c :: ds, rest)
    else ([], c :: s)
  | _, s => ([], s)

/-- A whole text of one or more digits. -/
def read? (s : List Char) : Option Nat :=
  if !s.isEmpty && s.all Char.isDigit then some (value s) else none

/-- The least number that no double comes near. -/
def infinite : Nat := (1 <<< 1024) - (1 <<< 970)

/-- Whether `n * 10 ^ e` is too large for a double. The least such number has 309 places, so that only
another one with as many is compared digit by digit. -/
def overflows (n : Nat) (e : Int) : Bool :=
  let places : Int := (digits n).length
  n != 0 && 308 < places + e &&
    (309 < places + e ||
      (if 0 ≤ e then infinite ≤ n * Nat.pow 10 e.toNat else infinite * Nat.pow 10 (-e).toNat ≤ n))

end MemoryBus.Decimal
