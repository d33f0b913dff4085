import MemoryBus.Decimal
import MemoryBus.Json.Value

/-! Numbers of JSON, and which of them are too large to be read at all. -/
namespace MemoryBus.Json.Number

def wordBound : Nat := UInt64.size

/-- The leading digits of a number as far as they fit in a word, times a power of ten. -/
structure Scaled where
  digits : Nat
  exponent : Int
  deriving DecidableEq, Repr

/-- Once a digit does not fit, it and those behind it only count as zeros. -/
def addWhole : Bool → Scaled → List Char → Scaled
  | _, x, [] => x
  | full, x, c :: s =>
    let n := 10 * x.digits + Decimal.digitValue c
    if !full ∧ n < wordBound then addWhole false ⟨n, x.exponent⟩ s
    else addWhole true ⟨x.digits, x.exponent + 1⟩ s

/-- Digits behind the point, of which those that do not fit are dropped. -/
def addFraction (x : Scaled) : List Char → Scaled
  | [] => x
  | c :: s =>
    let n := 10 * x.digits + Decimal.digitValue c
    if n < wordBound then addFraction ⟨n, x.exponent - 1⟩ s else x

/-- The nearest number with a mantissa of 53 bits; a tie goes to the even one. -/
def round53 (n : Nat) : Nat :=
  if n < 1 <<< 53 then n
  else
    let unit := 1 <<< (n.log2 - 52)
    let (q, r) := (n / unit, n % unit)
    if 2 * r > unit ∨ (2 * r = unit ∧ q % 2 = 1) then (q + 1) * unit else q * unit

def isTooLarge (x : Scaled) : Bool :=
  x.digits != 0 && 0 ≤ x.exponent &&
    (x.exponent > 308 || round53 x.digits * round53 (Nat.pow 10 x.exponent.toNat) ≥ Decimal.infinite)

/-- An exponent of ten digits or more is out of bounds. -/
def exponentBound : Nat := 0x80000000

def raise (x : Scaled) (negative : Bool) (ds : List Char) : Option Scaled :=
  let n := Decimal.value ds
  if n < exponentBound then some ⟨x.digits, if negative then x.exponent - n else x.exponent + n⟩
  else if x.digits != 0 && !negative then none
  else some ⟨0, 0⟩

/-- One or more digits, and what follows them. -/
def digits? (s : List Char) : Option (List Char × List Char) :=
  match Decimal.span s with
  | ([], _) => none
  | result => some result

/-- The fraction of a number, which is empty where there is no point. -/
def fraction? : List Char → Option (List Char × List Char)
  | '.' :: s => digits? s
  | s => some ([], s)

def signed? (s : List Char) : Option (Bool × List Char × List Char) :=
  match s with
  | '-' :: s => (digits? s).map (true, ·)
  | '+' :: s => (digits? s).map (false, ·)
  | s => (digits? s).map (false, ·)

/-- The sign and digits of an exponent, if there is one. -/
def exponent? : List Char → Option (Option (Bool × List Char) × List Char)
  | 'e' :: s => (signed? s).map fun (negative, ds, s) => (some (negative, ds), s)
  | 'E' :: s => (signed? s).map fun (negative, ds, s) => (some (negative, ds), s)
  | s => some (none, s)

/-- A number without a sign. No zero stands in front of other digits. -/
def readUnsigned (negative : Bool) (s : List Char) : Option (Value × List Char) := do
  let (whole, s) ← digits? s
  guard (whole.head? ≠ some '0' ∨ whole.length = 1)
  let (fraction, s) ← fraction? s
  let (exponent, s) ← exponent? s
  let n := Decimal.value whole
  if fraction.isEmpty ∧ exponent.isNone ∧ !negative ∧ n < wordBound then return (.natural n, s)
  let x := addFraction (addWhole false ⟨0, 0⟩ whole) fraction
  let x ← match exponent with
    | some (down, ds) => raise x down ds
    | none => some x
  guard !isTooLarge x
  return (.otherNumber, s)

def read : List Char → Option (Value × List Char)
  | '-' :: s => readUnsigned true s
  | s => readUnsigned false s

end MemoryBus.Json.Number
