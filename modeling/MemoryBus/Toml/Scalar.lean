import MemoryBus.Calendar
import MemoryBus.Decimal
import MemoryBus.Toml.Quoted
import MemoryBus.Toml.Value

/-! Values of TOML without quotes: numbers, booleans, dates and times. How a number is written is one
question, and what it counts is another: a number that is written well may have no value. -/
namespace MemoryBus.Toml.Scalar

/-- The characters that end a value without quotes. -/
def isDelimiter (c : Char) : Bool := ['=', ',', '[', ']', '{', '}', ' ', '\t', '#', '\r', '\n'].contains c

def isDigitBelow (base : Nat) (c : Char) : Bool := (Hex.digit? c).any (· < base)

/-- Whether every underscore stands between two digits. `digitBefore` says whether `s` comes after one. -/
def isGrouped (isDigit : Char → Bool) (digitBefore : Bool) : List Char → Bool
  | [] => true
  | ['_'] => false
  | '_' :: c :: s => digitBefore && isDigit c && isGrouped isDigit true s
  | c :: s => isGrouped isDigit (isDigit c) s

def dropUnderscores (s : List Char) : List Char := s.filter (· != '_')

/-- The value of one or more digits. -/
def natural? (base : Nat) (s : List Char) : Option Nat :=
  if !s.isEmpty ∧ s.all (isDigitBelow base) then
    some (s.foldl (fun n c => base * n + (Hex.digit? c).getD 0) 0)
  else none

/-- Integers are read in words of 128 bits, with a sign or without. -/
def integer (n : Option Int) : Value :=
  match n with
  | some n => if -0x80000000000000000000000000000000 ≤ n ∧ n < 0x100000000000000000000000000000000 then .integer n else .badNumber
  | none => .badNumber

/-- What follows the mark of a base: its digits, of which there may be none. -/
def based? (base : Nat) (s : List Char) : Option Value :=
  if (dropUnderscores s).all (isDigitBelow base) ∧ isGrouped (isDigitBelow 16) false s then
    some (integer ((natural? base (dropUnderscores s)).map fun n => (n : Int)))
  else none

/-- The sign of a number, which is true for a minus, and what follows it. -/
def splitSign : List Char → Option Bool × List Char
  | '+' :: s => (some false, s)
  | '-' :: s => (some true, s)
  | s => (none, s)

/-- A whole number in base ten. Digits of any base may follow an underscore, but they have no value. -/
def decimal? (sign : Option Bool) (s : List Char) : Option Value :=
  let rest := (Decimal.span s).2
  if (s = ['0'] ∨ s.head? ≠ some '0') ∧ (rest.isEmpty ∨ rest.head? = some '_') ∧ !rest.contains ' ' ∧
      isGrouped (isDigitBelow 16) false s then
    some (integer ((natural? 10 (dropUnderscores s)).map fun n => if sign = some true then -(n : Int) else n))
  else none

/-- One or more digits, perhaps with underscores among them, and what follows. -/
def digits? (s : List Char) : Option (List Char × List Char) :=
  let (part, rest) := s.span fun c => c.isDigit || c == '_'
  let ds := dropUnderscores part
  if ds.isEmpty then none else some (ds, rest)

/-- The digits behind a point, if there is one. -/
def fraction? : List Char → Option (List Char × List Char)
  | '.' :: s => digits? s
  | s => some ([], s)

/-- The exponent at the end of a number, if there is one. -/
def exponent? : List Char → Option Int
  | [] => some 0
  | c :: s =>
    if c = 'e' ∨ c = 'E' then
      let (sign, s) := splitSign s
      match digits? s with
      | some (ds, []) => some (if sign = some true then -(Decimal.value ds : Int) else Decimal.value ds)
      | _ => none
    else none

/-- A number with a fraction, an exponent, or both. -/
def float? (s : List Char) : Option Value := do
  let (whole, rest) ← digits? s
  guard (s.head? ≠ some '0' ∨ whole.length = 1)
  let (fraction, rest) ← fraction? rest
  let exponent ← exponent? rest
  guard (isGrouped Char.isDigit false s)
  let n := Decimal.value (whole ++ fraction)
  return if Decimal.overflows n (exponent - fraction.length) then .badNumber else .float

/-- A number of exactly `width` digits, and what follows them. -/
def fixed (width : Nat) (s : List Char) : Option (Nat × List Char) :=
  let ds := s.take width
  if ds.length = width ∧ ds.all Char.isDigit then some (Decimal.value ds, s.drop width) else none

def mark (c : Char) : List Char → Option (List Char)
  | d :: s => if c = d then some s else none
  | [] => none

def date? (s : List Char) : Option (List Char) := do
  let (year, s) ← fixed 4 s
  let (month, s) ← fixed 2 (← mark '-' s)
  let (day, s) ← fixed 2 (← mark '-' s)
  guard (Date.isValid ⟨year, month, day⟩)
  return s

/-- Seconds and their fraction may be left out; second 60 is a leap second. -/
def clock? (s : List Char) : Option (List Char) := do
  let (hour, s) ← fixed 2 s
  let (minute, s) ← fixed 2 (← mark ':' s)
  guard (hour < 24 ∧ minute < 60)
  match s with
  | ':' :: s =>
    let (sec, s) ← fixed 2 s
    guard (sec ≤ 60)
    match s with
    | '.' :: s =>
      let (fraction, rest) := s.span Char.isDigit
      guard !fraction.isEmpty
      return rest
    | s => return s
  | s => return s

/-- An offset from UTC, or nothing. -/
def isOffset : List Char → Bool
  | [] => true
  | ['Z'] => true
  | ['z'] => true
  | sign :: s =>
    (sign == '+' || sign == '-') &&
      (match fixed 2 s with
        | some (hours, ':' :: s) =>
          match fixed 2 s with
          | some (minutes, []) => hours < 24 && minutes < 60
          | _ => false
        | _ => false)

def isTime (s : List Char) : Bool :=
  match date? s with
  | some [] => true
  | some (sep :: s) =>
    (sep == 'T' || sep == 't' || sep == ' ') &&
      (match clock? s with
        | some rest => isOffset rest
        | none => false)
  | none => clock? s == some []

/-- Whether more of a word follows after blanks, as a time follows a date. -/
def goesOn (s : List Char) : Bool :=
  match s.dropWhile Quoted.isSpace with
  | c :: _ => !isDelimiter c && ['.', '"', '\''].all (c != ·)
  | [] => false

/-- A word without quotes at its start, and what follows it. -/
def word : List Char → List Char × List Char
  | [] => ([], [])
  | c :: s =>
    if !isDelimiter c ∨ (Quoted.isSpace c ∧ goesOn s) then
      let (w, rest) := word s
      (c :: w, rest)
    else ([], c :: s)

/-- What stands behind the first digits tells dates and times, fractional numbers and whole ones apart. -/
def ofDigits? (s : List Char) : Option Value :=
  let (sign, number) := splitSign s
  match number.dropWhile Char.isDigit with
  | '-' :: _ => if isTime s then some .time else none
  | ':' :: _ => if isTime s then some .time else none
  | rest => if rest.any ['.', 'e', 'E'].contains then float? number else decimal? sign number

def ofWord? (s : List Char) : Option Value :=
  if s = "true".toList then some (.boolean true)
  else if s = "false".toList then some (.boolean false)
  else
    let (sign, number) := splitSign s
    if number = "inf".toList ∨ number = "nan".toList then some .float
    else
      match sign, number with
      | none, '0' :: 'x' :: s => based? 16 s
      | none, '0' :: 'o' :: s => based? 8 s
      | none, '0' :: 'b' :: s => based? 2 s
      | _, c :: _ => if c.isDigit then ofDigits? s else none
      | _, [] => none

def read? (s : List Char) : Option (Value × List Char) :=
  let (w, rest) := word s
  (ofWord? w).map fun v => (v, rest)

end MemoryBus.Toml.Scalar
