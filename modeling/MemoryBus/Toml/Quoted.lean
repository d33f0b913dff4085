import MemoryBus.Hex

/-! Quoted strings of TOML: basic ones with escapes and literal ones without, on one line or many. -/
namespace MemoryBus.Toml.Quoted

/-- Characters that no string holds as they are. -/
def isControl (c : Char) : Bool := (c.toNat < 0x20 && c != '\t') || c.toNat == 0x7F

/-- Where a basic string stands between two characters. -/
inductive Mode
  | plain
  | escape
  /-- The code of a character, of which `digits` digits are missing. -/
  | code (digits value : Nat)
  /-- Behind a backslash at the end of a line, blanks and newlines are dropped. -/
  | trim (newline : Bool)
  deriving DecidableEq

inductive Escape
  | char (c : Char)
  | code (digits : Nat)

def escape? : Char → Option Escape
  | 'b' => some (.char '\x08')
  | 't' => some (.char '\t')
  | 'n' => some (.char '\n')
  | 'f' => some (.char '\x0c')
  | 'r' => some (.char '\r')
  | 'e' => some (.char '\x1b')
  | '"' => some (.char '"')
  | '\\' => some (.char '\\')
  | 'x' => some (.code 2)
  | 'u' => some (.code 4)
  | 'U' => some (.code 8)
  | _ => none

/-- The character of a code; surrogates have none. -/
def charOfCode? (n : Nat) : Option Char := if n.isValidChar then some (Char.ofNat n) else none

/-- Up to two quotes may stand directly before the three that close a string of many lines. -/
def extraQuotes (q : Char) : List Char → List Char × List Char
  | a :: b :: s =>
    if a = q ∧ b = q then ([q, q], s) else if a = q then ([q], b :: s) else ([], a :: b :: s)
  | [a] => if a = q then ([q], []) else ([], [a])
  | [] => ([], [])

/-- What the closing quotes leave, when `s` follows a quote `q`. -/
def close? (multi : Bool) (q : Char) (s : List Char) : Option (List Char × List Char) :=
  if multi then
    match s with
    | a :: b :: rest => if a = q ∧ b = q then some (extraQuotes q rest) else none
    | _ => none
  else some ([], s)

def push (c : Char) (r : Option (List Char × List Char)) : Option (List Char × List Char) :=
  r.map fun (cs, s) => (c :: cs, s)

/-- A carriage return stands only before a line feed. -/
def lineEnds (c : Char) (s : List Char) : Bool := c == '\n' || (c == '\r' && s.head? == some '\n')

def isSpace (c : Char) : Bool := c == ' ' || c == '\t'

/-- The contents of a basic string up to its closing quotes, and what follows them. -/
def basic (multi : Bool) : Mode → List Char → Option (List Char × List Char)
  | _, [] => none
  | mode, c :: s =>
    let mode := if mode = .trim true ∧ !isSpace c ∧ !lineEnds c s then .plain else mode
    match mode with
    | .plain =>
      if c = '"' then
        match close? multi '"' s with
        | some result => some result
        | none => push c (basic multi .plain s)
      else if c = '\\' then basic multi .escape s
      else if multi ∧ lineEnds c s then push c (basic multi .plain s)
      else if isControl c then none
      else push c (basic multi .plain s)
    | .escape =>
      match escape? c with
      | some (.char d) => push d (basic multi .plain s)
      | some (.code digits) => basic multi (.code digits 0) s
      | none =>
        if multi ∧ lineEnds c s then basic multi (.trim true) s
        else if multi ∧ isSpace c then basic multi (.trim false) s
        else none
    | .code digits value =>
      match Hex.digit? c with
      | none => none
      | some d =>
        let value := 16 * value + d
        if digits ≤ 1 then
          match charOfCode? value with
          | some e => push e (basic multi .plain s)
          | none => none
        else basic multi (.code (digits - 1) value) s
    | .trim newline =>
      if lineEnds c s then basic multi (.trim true) s
      else if isSpace c then basic multi (.trim newline) s
      else none

/-- The contents of a literal string up to its closing quotes, and what follows them. -/
def literal (multi : Bool) : List Char → Option (List Char × List Char)
  | [] => none
  | c :: s =>
    if c = '\'' then
      match close? multi '\'' s with
      | some result => some result
      | none => push c (literal multi s)
    else if multi ∧ lineEnds c s then push c (literal multi s)
    else if isControl c then none
    else push c (literal multi s)

/-- A newline directly behind three opening quotes is no part of the string. -/
def dropNewline : List Char → List Char
  | '\n' :: s => s
  | '\r' :: '\n' :: s => s
  | s => s

def toText (r : Option (List Char × List Char)) : Option (String × List Char) :=
  r.map fun (cs, s) => (String.ofList cs, s)

/-- A string on one line. -/
def readLine? : List Char → Option (String × List Char)
  | '"' :: s => toText (basic false .plain s)
  | '\'' :: s => toText (literal false s)
  | _ => none

def read? : List Char → Option (String × List Char)
  | '"' :: '"' :: '"' :: s => toText (basic true .plain (dropNewline s))
  | '\'' :: '\'' :: '\'' :: s => toText (literal true (dropNewline s))
  | s => readLine? s

end MemoryBus.Toml.Quoted
