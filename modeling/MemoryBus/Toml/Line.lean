import MemoryBus.Toml.Quoted
import MemoryBus.Toml.Scalar

/-! The lines of a TOML document: headers, and keys with their values. -/
namespace MemoryBus.Toml

inductive Line
  | header (ofTables : Bool) (path : List String) (key : String)
  | entry (path : List String) (key : String) (v : Value)

namespace Line

def skipSpaces (s : List Char) : List Char := s.dropWhile Quoted.isSpace

/-- Blanks, newlines and comments, which may stand between the parts of an array or an inline table. -/
def skipTrivia : Bool → List Char → Option (List Char)
  | _, [] => some []
  | true, c :: s =>
    if Quoted.lineEnds c s then skipTrivia false s
    else if Quoted.isControl c then none
    else skipTrivia true s
  | false, c :: s =>
    if Quoted.isSpace c ∨ Quoted.lineEnds c s then skipTrivia false s
    else if c = '#' then skipTrivia true s
    else some (c :: s)

def isBareKeyChar (c : Char) : Bool := c.isAlphanum || c == '_' || c == '-'

def readSimpleKey (s : List Char) : Option (String × List Char) :=
  match s.span isBareKeyChar with
  | ([], s) => Quoted.readLine? s
  | (key, rest) => some (String.ofList key, rest)

/-- Keys with points between them: all but the last, and the last. -/
def readKey : Nat → List Char → Option (List String × String × List Char)
  | 0, _ => none
  | fuel + 1, s => do
    let (key, s) ← readSimpleKey s
    match skipSpaces s with
    | '.' :: rest =>
      let (path, last, rest) ← readKey fuel (skipSpaces rest)
      return (key :: path, last, rest)
    | rest => return ([], key, rest)

/-- How deep brackets and braces may nest. -/
def maxDepth : Nat := 80

mutual

/-- A value whose brackets nest at most `depth` deep. The fuel bounds the length of a chain of
parts, each of which takes a character at least. -/
def readValue : Nat → Nat → List Char → Option (Value × List Char)
  | 0, _, _ => none
  | fuel + 1, depth, s =>
    match s, depth with
    | '[' :: s, depth + 1 => do
      let (items, s) ← readItems fuel depth s
      return (.array false items, s)
    | '{' :: s, depth + 1 => do
      let (t, s) ← readFields fuel depth (.empty .inline) s
      return (t.toValue, s)
    | '[' :: _, 0 => none
    | '{' :: _, 0 => none
    | '"' :: _, _ => (Quoted.read? s).map fun (text, s) => (.text text, s)
    | '\'' :: _, _ => (Quoted.read? s).map fun (text, s) => (.text text, s)
    | s, _ => Scalar.read? s

/-- What follows an opening bracket or a comma. -/
def readItems : Nat → Nat → List Char → Option (List Value × List Char)
  | 0, _, _ => none
  | fuel + 1, depth, s => do
    match ← skipTrivia false s with
    | ']' :: s => return ([], s)
    | s =>
      let (v, s) ← readValue fuel depth s
      match ← skipTrivia false s with
      | ']' :: s => return ([v], s)
      | ',' :: s =>
        let (vs, s) ← readItems fuel depth s
        return (v :: vs, s)
      | _ => none

/-- What follows an opening brace or a comma, added to `t`. -/
def readFields : Nat → Nat → Table → List Char → Option (Table × List Char)
  | 0, _, _, _ => none
  | fuel + 1, depth, t, s => do
    match ← skipTrivia false s with
    | '}' :: s => return (t, s)
    | s =>
      let (path, key, s) ← readKey s.length s
      let s ← Scalar.mark '=' (← skipTrivia false s)
      let (v, s) ← readValue fuel depth (← skipTrivia false s)
      let t ← t.insert path key v
      match ← skipTrivia false s with
      | '}' :: s => return (t, s)
      | ',' :: s => readFields fuel depth t s
      | _ => none

end

def readHeader (ofTables : Bool) (s : List Char) : Option (Line × List Char) := do
  let (path, key, s) ← readKey s.length (skipSpaces s)
  let s ← Scalar.mark ']' s
  let s ← if ofTables then Scalar.mark ']' s else some s
  return (.header ofTables path key, s)

def readEntry (s : List Char) : Option (Line × List Char) := do
  let (path, key, s) ← readKey s.length s
  let s ← Scalar.mark '=' s
  let (v, s) ← readValue (s.length + 1) maxDepth (skipSpaces s)
  return (.entry path key v, s)

/-- The rest of a line after its contents: blanks and a comment, up to a newline or the end. -/
def endLine : Bool → List Char → Option (List Char)
  | _, [] => some []
  | comment, c :: s =>
    if Quoted.lineEnds c s then some (if c = '\r' then s.drop 1 else s)
    else if comment then (if Quoted.isControl c then none else endLine true s)
    else if Quoted.isSpace c then endLine false s
    else if c = '#' then endLine true s
    else none

def read : List Char → Option (Line × List Char)
  | '[' :: '[' :: s => readHeader true s
  | '[' :: s => readHeader false s
  | s => readEntry s

/-- The lines of a text, without the blank ones. Each takes a character at least. -/
def readAll : Nat → List Char → Option (List Line)
  | 0, _ => none
  | fuel + 1, s => do
    match ← skipTrivia false s with
    | [] => return []
    | s =>
      let (line, s) ← read s
      let lines ← readAll fuel (← endLine false s)
      return line :: lines

/-- The lines of a document; a byte order mark may come first. -/
def ofText? (s : List Char) : Option (List Line) :=
  let s := match s with
    | '\uFEFF' :: s => s
    | s => s
  readAll (s.length + 1) s

end Line
end MemoryBus.Toml
