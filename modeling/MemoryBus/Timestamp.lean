import MemoryBus.Blank
import MemoryBus.Calendar
import MemoryBus.Decimal

/-! Instants, written and read in the format of RFC 3339. -/
namespace MemoryBus

/-- Seconds since 1970-01-01T00:00:00Z, and the nanoseconds of the running second. A leap second is
the second before it with `10 ^ 9` nanoseconds more. -/
structure Timestamp where
  seconds : Int
  nanos : Nat
  deriving DecidableEq, Repr, Inhabited

namespace Timestamp

def secondsPerDay : Nat := 86400

def second : Nat := 1000000000

/-- Years outside 0000 to 9999 carry a sign. -/
def writeYear (y : Int) : List Char :=
  if 0 ≤ y ∧ y ≤ 9999 then Decimal.padded 4 y.toNat
  else if y < 0 then '-' :: Decimal.padded 4 (-y).toNat
  else '+' :: Decimal.padded 4 y.toNat

/-- The fewest of 0, 3, 6 or 9 digits that are exact. -/
def writeFraction (nanos : Nat) : List Char :=
  if nanos = 0 then []
  else if nanos % 1000000 = 0 then '.' :: Decimal.padded 3 (nanos / 1000000)
  else if nanos % 1000 = 0 then '.' :: Decimal.padded 6 (nanos / 1000)
  else '.' :: Decimal.padded 9 nanos

def write (t : Timestamp) : List Char :=
  let date := Date.ofDays (t.seconds / secondsPerDay)
  let clock := (t.seconds % secondsPerDay).toNat
  let sec := clock % 60 + t.nanos / second
  writeYear date.year ++ '-' :: Decimal.padded 2 date.month ++ '-' :: Decimal.padded 2 date.day ++
    'T' :: Decimal.padded 2 (clock / 3600) ++ ':' :: Decimal.padded 2 (clock / 60 % 60) ++
    ':' :: Decimal.padded 2 sec ++ writeFraction (t.nanos % second) ++ ['Z']

/-- The years that an instant may fall in. -/
def minYear : Int := -262143

def maxYear : Int := 262142

/-- A number of one up to `most` digits, after blanks. -/
def readNumber (most : Nat) (s : List Char) : Option (Nat × List Char) :=
  match Decimal.spanUpTo most (skipBlanks s) with
  | ([], _) => none
  | (ds, rest) => some (Decimal.value ds, rest)

/-- A number of any length, with no blanks before it. -/
def readLongNumber (s : List Char) : Option (Nat × List Char) :=
  match Decimal.span s with
  | ([], _) => none
  | (ds, rest) => some (Decimal.value ds, rest)

/-- Four digits at most, or a sign and any number of them. -/
def readYear (s : List Char) : Option (Int × List Char) :=
  match skipBlanks s with
  | '-' :: rest => (readLongNumber rest).map fun (n, rest) => (-(n : Int), rest)
  | '+' :: rest => (readLongNumber rest).map fun (n, rest) => ((n : Int), rest)
  | s => (readNumber 4 s).map fun (n, rest) => ((n : Int), rest)

/-- The character `c`, after blanks. -/
def readMark (c : Char) (s : List Char) : Option (List Char) :=
  match skipBlanks s with
  | [] => none
  | d :: rest => if c = d then some rest else none

def readDate (s : List Char) : Option (Date × List Char) := do
  let (year, s) ← readYear s
  let (month, s) ← readNumber 2 (← readMark '-' s)
  let (day, s) ← readNumber 2 (← readMark '-' s)
  return (⟨year, month, day⟩, s)

/-- A point and digits, of which the first nine count. -/
def readFraction : List Char → Option (Nat × List Char)
  | '.' :: s =>
    match Decimal.spanUpTo 9 s with
    | ([], _) => none
    | (ds, rest) => some (Decimal.value ds * Nat.pow 10 (9 - ds.length), rest.dropWhile Char.isDigit)
  | s => some (0, s)

/-- Seconds of the day and nanoseconds. Second 60 is a leap second. -/
def readClock (s : List Char) : Option (Nat × Nat × List Char) := do
  let (hour, s) ← readNumber 2 s
  let (minute, s) ← readNumber 2 (← readMark ':' s)
  let (sec, s) ← readNumber 2 (← readMark ':' s)
  let (nanos, s) ← readFraction s
  guard (hour < 24 ∧ minute < 60 ∧ sec ≤ 60)
  let leap := sec / 60
  return (hour * 3600 + minute * 60 + (sec - leap), nanos + leap * second, s)

def readSign : List Char → Option (Int × List Char)
  | '+' :: s => some (1, s)
  | '-' :: s => some (-1, s)
  | '−' :: s => some (-1, s)
  | _ => none

/-- Hours and minutes east of UTC, in seconds; `Z` and `UTC` stand for none. -/
def readOffset (s : List Char) : Option (Int × List Char) :=
  match s with
  | 'Z' :: s | 'z' :: s => some (0, s)
  | a :: b :: c :: rest =>
    if [a, b, c].map Char.toUpper = ['U', 'T', 'C'] then some (0, rest) else numeric s
  | s => numeric s
where
  numeric (s : List Char) : Option (Int × List Char) := do
    let (sign, s) ← readSign s
    let (hours, s) ← twoDigits s
    let (minutes, s) ← twoDigits (s.dropWhile fun c => c == ':' || isBlank c)
    guard (hours < 24 ∧ minutes < 60)
    return (sign * (hours * 3600 + minutes * 60 : Nat), s)
  twoDigits : List Char → Option (Nat × List Char)
    | a :: b :: s => if a.isDigit && b.isDigit then some (Decimal.value [a, b], s) else none
    | _ => none

/-- Reads an instant. Blanks may stand between its parts, and the offset from UTC is taken off. -/
def read? (s : List Char) : Option Timestamp := do
  let (date, s) ← readDate s
  guard (date.isValid ∧ minYear ≤ date.year ∧ date.year ≤ maxYear)
  let s ← match s with
    | 'T' :: s | 't' :: s | ' ' :: s => some s
    | _ => none
  let (clock, nanos, s) ← readClock s
  let (offset, s) ← readOffset (skipBlanks s)
  guard (skipBlanks s).isEmpty
  let seconds := date.toDays * secondsPerDay + clock - offset
  let year := Date.yearOf (seconds / secondsPerDay)
  guard (minYear ≤ year ∧ year ≤ maxYear)
  return ⟨seconds, nanos⟩

end Timestamp
end MemoryBus
