import MemoryBus.Decimal
import MemoryBus.Toml.Quoted

/-! How strings, numbers and lists are written in TOML. -/
namespace MemoryBus.Toml.Printer

/-- Texts of these characters alone are written in double quotes without further ado. -/
def isPlainChar (c : Char) : Bool :=
  c.isAlphanum || c == '_' || c == '-' || c == '.' || c == '/' || c == ':' || c == ' '

/-- Characters that a literal string cannot hold. -/
def needsEscape (c : Char) : Bool := Quoted.isControl c && c != '\n'

/-- The longest run of `q`, when `run` of them have just been seen. -/
def longestRun (q : Char) (run : Nat) : List Char → Nat
  | [] => run
  | c :: s => if c = q then longestRun q (run + 1) s else max run (longestRun q 0 s)

/-- What decides how a text is quoted. -/
structure Traits where
  escapes : Bool
  backslash : Bool
  newline : Bool
  singleRun : Nat
  doubleRun : Nat
  deriving DecidableEq, Repr

def traits (s : List Char) : Traits :=
  ⟨s.any needsEscape, s.contains '\\', s.contains '\n', longestRun '\'' 0 s, longestRun '"' 0 s⟩

inductive Form
  | basic
  | literal
  | multiBasic
  | multiLiteral
  deriving DecidableEq, Repr

/-- The first form that shows the text as it is, else one with escapes. -/
def form (s : List Char) : Form :=
  if s.all isPlainChar then .basic
  else
    let t := traits s
    if !t.escapes ∧ !t.backslash ∧ !t.newline ∧ t.doubleRun = 0 then .basic
    else if !t.escapes ∧ !t.newline ∧ t.singleRun = 0 then .literal
    else if !t.escapes ∧ !t.backslash ∧ t.doubleRun ≤ 2 then .multiBasic
    else if !t.escapes ∧ t.singleRun ≤ 2 then .multiLiteral
    else if t.newline then .multiBasic
    else .basic

/-- The code of a character, in four digits. -/
def unicodeEscape (c : Char) : List Char := '\\' :: 'u' :: (Hex.upper c.toNat).leftpad 4 '0'

def escapeChar (c : Char) : List Char :=
  match c with
  | '\x08' => ['\\', 'b']
  | '\t' => ['\\', 't']
  | '\n' => ['\\', 'n']
  | '\x0c' => ['\\', 'f']
  | '\r' => ['\\', 'r']
  | '\\' => ['\\', '\\']
  | '"' => ['\\', '"']
  | c => if Quoted.isControl c then unicodeEscape c else [c]

/-- In a string of many lines a newline is itself, and so are quotes up to the second in a row.
`run` counts the quotes just written. -/
def multiBasicBody (run : Nat) : List Char → List Char
  | [] => []
  | c :: s =>
    if c = '"' then
      if run < 2 then '"' :: multiBasicBody (run + 1) s else '\\' :: '"' :: multiBasicBody 0 s
    else if c = '\n' then '\n' :: multiBasicBody 0 s
    else escapeChar c ++ multiBasicBody 0 s

def opening (s : List Char) : List Char := if s.contains '\n' then ['\n'] else []

def quote (s : List Char) : List Char :=
  match form s with
  | .basic => '"' :: (s.flatMap escapeChar ++ ['"'])
  | .literal => '\'' :: (s ++ ['\''])
  | .multiBasic => '"' :: '"' :: '"' :: (opening s ++ multiBasicBody 0 s ++ ['"', '"', '"'])
  | .multiLiteral => '\'' :: '\'' :: '\'' :: (opening s ++ s ++ ['\'', '\'', '\''])

def number (n : Nat) : List Char := Decimal.digits n

def list (items : List (List Char)) : List Char := '[' :: ([',', ' '].intercalate items ++ [']'])

def entry (key : String) (value : List Char) : List Char := key.toList ++ ' ' :: '=' :: ' ' :: (value ++ ['\n'])

end MemoryBus.Toml.Printer
