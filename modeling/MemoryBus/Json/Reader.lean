import MemoryBus.Json.Number
import MemoryBus.Json.Text

/-! Reading a JSON text. -/
namespace MemoryBus.Json

def isSpace (c : Char) : Bool := c == ' ' || c == '\n' || c == '\t' || c == '\r'

def skipSpaces (s : List Char) : List Char := s.dropWhile isSpace

/-- What follows `word`, if `s` begins with it. -/
def dropPrefix? (word s : List Char) : Option (List Char) :=
  if word.isPrefixOf s then some (s.drop word.length) else none

def readWord (word : String) (v : Value) (s : List Char) : Option (Value × List Char) :=
  (dropPrefix? word.toList s).map fun s => (v, s)

/-- How deep arrays and objects may nest. -/
def maxDepth : Nat := 127

def expect (c : Char) (s : List Char) : Option (List Char) :=
  match skipSpaces s with
  | [] => none
  | d :: s => if c = d then some s else none

mutual

/-- A value whose brackets nest at most `depth` deep. The fuel bounds the length of a chain of
parts, each of which takes a character at least. -/
def readValue : Nat → Nat → List Char → Option (Value × List Char)
  | 0, _, _ => none
  | fuel + 1, depth, s =>
    match skipSpaces s, depth with
    | '[' :: s, depth + 1 =>
      match skipSpaces s with
      | ']' :: s => some (.array [], s)
      | s => (readItems fuel depth s).map fun (items, s) => (.array items, s)
    | '{' :: s, depth + 1 =>
      match skipSpaces s with
      | '}' :: s => some (.object [], s)
      | s => (readFields fuel depth s).map fun (fields, s) => (.object fields, s)
    | '"' :: s, _ => (Text.read .plain s).map fun (text, s) => (.text text, s)
    | 'n' :: s, _ => readWord "null" .null ('n' :: s)
    | 't' :: s, _ => readWord "true" (.boolean true) ('t' :: s)
    | 'f' :: s, _ => readWord "false" (.boolean false) ('f' :: s)
    | s, _ => Number.read s

/-- One item or more, up to the closing bracket. -/
def readItems : Nat → Nat → List Char → Option (List Value × List Char)
  | 0, _, _ => none
  | fuel + 1, depth, s => do
    let (v, s) ← readValue fuel depth s
    match skipSpaces s with
    | ']' :: s => return ([v], s)
    | ',' :: s =>
      let (vs, s) ← readItems fuel depth s
      return (v :: vs, s)
    | _ => none

/-- One field or more, up to the closing brace. -/
def readFields : Nat → Nat → List Char → Option (List (List Char × Value) × List Char)
  | 0, _, _ => none
  | fuel + 1, depth, s => do
    let (name, s) ← Text.read .plain (← expect '"' s)
    let (v, s) ← readValue fuel depth (← expect ':' s)
    match skipSpaces s with
    | '}' :: s => return ([(name, v)], s)
    | ',' :: s =>
      let (fields, s) ← readFields fuel depth s
      return ((name, v) :: fields, s)
    | _ => none

end

/-- The value that a text holds, with nothing but blanks behind it. -/
def read? (s : List Char) : Option Value := do
  let (v, s) ← readValue (s.length + 1) maxDepth s
  guard (skipSpaces s).isEmpty
  return v

end MemoryBus.Json
