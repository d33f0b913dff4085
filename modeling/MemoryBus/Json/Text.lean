import MemoryBus.Hex

/-! Strings of JSON. -/
namespace MemoryBus.Json.Text

/-- Where a string stands between two characters. A character outside the first plane is written as
two codes: `high` is the first of them. -/
inductive Mode
  | plain
  | escape
  | code (high : Option Nat) (digits value : Nat)
  | lowEscape (high : Nat)
  | lowCode (high : Nat)

def escape? : Char → Option Char
  | '"' => some '"'
  | '\\' => some '\\'
  | '/' => some '/'
  | 'b' => some '\x08'
  | 'f' => some '\x0c'
  | 'n' => some '\n'
  | 'r' => some '\r'
  | 't' => some '\t'
  | _ => none

def isHigh (n : Nat) : Bool := 0xD800 ≤ n && n < 0xDC00

def isLow (n : Nat) : Bool := 0xDC00 ≤ n && n < 0xE000

def push (c : Char) (r : Option (List Char × List Char)) : Option (List Char × List Char) :=
  r.map fun (cs, s) => (c :: cs, s)

/-- The contents of a string up to its closing quote, and what follows it. -/
def read : Mode → List Char → Option (List Char × List Char)
  | _, [] => none
  | .plain, c :: s =>
    if c = '"' then some ([], s)
    else if c = '\\' then read .escape s
    else if c.toNat < 0x20 then none
    else push c (read .plain s)
  | .escape, c :: s =>
    if c = 'u' then read (.code none 4 0) s
    else
      match escape? c with
      | some d => push d (read .plain s)
      | none => none
  | .code high digits value, c :: s =>
    match Hex.digit? c with
    | none => none
    | some d =>
      let value := 16 * value + d
      if digits > 1 then read (.code high (digits - 1) value) s
      else
        match high with
        | some h =>
          if isLow value then push (Char.ofNat (0x10000 + (h - 0xD800) * 0x400 + (value - 0xDC00))) (read .plain s)
          else none
        | none =>
          if isHigh value then read (.lowEscape value) s
          else if isLow value then none
          else push (Char.ofNat value) (read .plain s)
  | .lowEscape high, c :: s => if c = '\\' then read (.lowCode high) s else none
  | .lowCode high, c :: s => if c = 'u' then read (.code (some high) 4 0) s else none

end MemoryBus.Json.Text
