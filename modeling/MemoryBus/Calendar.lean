/-! The Gregorian calendar, extended to all years, with days counted from 1970-01-01. -/
namespace MemoryBus

structure Date where
  year : Int
  month : Nat
  day : Nat
  deriving DecidableEq, Repr

namespace Date

def isLeapYear (y : Int) : Bool := y % 4 == 0 && (y % 100 != 0 || y % 400 == 0)

def monthLengths (y : Int) : List Nat :=
  [31, if isLeapYear y then 29 else 28, 31, 30, 31, 30, 31, 31, 30, 31, 30, 31]

/-- Month and day both count from one, and the day is one of its month. -/
def isValid (d : Date) : Bool :=
  match d.month, d.day with
  | m + 1, k + 1 => k < (monthLengths d.year).getD m 0
  | _, _ => false

/-- The number of 1 January. Every fourth year adds a day, save three in four hundred. -/
def yearStart (y : Int) : Int :=
  365 * (y - 1970) + ((y - 1) / 4 - (y - 1) / 100 + (y - 1) / 400) - 477

def toDays (d : Date) : Int :=
  let passed : Nat := ((monthLengths d.year).take (d.month - 1)).foldl (· + ·) 0
  yearStart d.year + passed + d.day - 1

/-- The mean length of a year misses the year of a day by at most one. -/
def yearOf (n : Int) : Int :=
  let guess := 1970 + n * 400 / 146097
  if n < yearStart guess then guess - 1
  else if yearStart (guess + 1) ≤ n then guess + 1
  else guess

/-- The month and day of the `n`-th day, counted from zero, over months of these lengths. -/
def monthAndDay : List Nat → Nat → Nat × Nat
  | [], n => (1, n + 1)
  | len :: rest, n =>
    if n < len then (1, n + 1)
    else
      let (m, d) := monthAndDay rest (n - len)
      (m + 1, d)

def ofDays (n : Int) : Date :=
  let y := yearOf n
  let (m, d) := monthAndDay (monthLengths y) (n - yearStart y).toNat
  ⟨y, m, d⟩

end Date
end MemoryBus
