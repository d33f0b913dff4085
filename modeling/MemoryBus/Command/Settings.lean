import MemoryBus.Alphanumeric
import MemoryBus.Blank

/-! Files of settings, one `KEY=value` to a line. Blank lines and lines that begin with `#` are
comments. A value may be quoted, and a quoted one may go on over several lines. Of such a file only
its first fault is of interest. -/
namespace MemoryBus.Command.Settings

/-- What a line leaves open for the lines after it. -/
inductive Open
  | nothing
  /-- After a blank, where a comment can begin. -/
  | blank
  | escape
  | single
  | singleEscape
  | double
  | doubleEscape
  deriving DecidableEq

namespace Open

/-- The state after a quote, an escape or a character that is neither. -/
def ofChar (c : Char) : Open :=
  if c = '\\' then escape
  else if c = '"' then double
  else if c = '\'' then single
  else nothing

def next (c : Char) : Open → Open
  | nothing => if isBlank c ∧ c ≠ '\n' ∧ c ≠ '\r' then blank else ofChar c
  | blank => ofChar c
  | escape => nothing
  | single => if c = '\\' then singleEscape else if c = '\'' then nothing else single
  | singleEscape => single
  | double => if c = '\\' then doubleEscape else if c = '"' then nothing else double
  | doubleEscape => double

end Open

/-- The text before a comment, and what is open at the end if no comment ended the line. -/
def scan : Open → List Char → List Char × Option Open
  | state, [] => ([], some state)
  | state, c :: s =>
    if state = .blank ∧ c = '#' then ([], none)
    else
      let (kept, final) := scan (state.next c) s
      (c :: kept, final)

/-- The lines of a text, each with its line end. -/
def physicalLines : List Char → List (List Char)
  | [] => []
  | c :: s =>
    if c = '\n' then [c] :: physicalLines s
    else
      match physicalLines s with
      | [] => [[c]]
      | line :: rest => (c :: line) :: rest

def dropLineEnd (s : List Char) : List Char :=
  match s.reverse with
  | '\n' :: '\r' :: r => r.reverse
  | '\n' :: r => r.reverse
  | _ => s

def isComment (s : List Char) : Bool := (skipBlanks s).head? == some '#'

/-- Lines joined while something is open. An error holds what the last of them left unfinished. -/
def lines (state : Open) (before : List Char) : List (List Char) → List (Except (List Char) (List Char))
  | [] => if state = .nothing then [] else [.error before]
  | line :: rest =>
    let text := before ++ line
    if isComment text then .ok [] :: lines .nothing [] rest
    else
      match scan state line with
      | (kept, none) => .ok (before ++ kept) :: lines .nothing [] rest
      | (_, some .nothing) => .ok (dropLineEnd text) :: lines .nothing [] rest
      | (_, some state) => lines state text rest

/-- Where a value stands between two characters. A dollar sign may name another setting, in braces or
without them; a name without braces is made of letters and digits. -/
inductive Mode
  | plain
  | single
  | double
  | escape (quoted : Bool)
  | name (quoted : Bool) (isEmpty : Bool)
  | braced (quoted : Bool)
  /-- After a blank only blanks and a comment may follow. -/
  | ended
  deriving DecidableEq

def Mode.afterName (quoted : Bool) : Mode := if quoted then .double else .plain

def escapable : List Char := ['\\', '\'', '"', '$', ' ', 'n']

/-- Whether a value is well formed. -/
def isValue : Mode → List Char → Bool
  | .plain, [] | .ended, [] | .name false _, [] | .escape false, [] => true
  | .single, [] | .double, [] | .name true _, [] | .escape true, [] | .braced _, [] => false
  | .ended, c :: s => c == '#' || ((c == ' ' || c == '\t') && isValue .ended s)
  | .escape quoted, c :: s => escapable.contains c && isValue (.afterName quoted) s
  | .single, c :: s => isValue (if c = '\'' then .plain else .single) s
  | .name quoted isEmpty, c :: s =>
    if isAlphanumeric c then isValue (.name quoted false) s
    else if c = '\x7b' ∧ isEmpty then isValue (.braced quoted) s
    else if c = '$' then isValue (.name quoted true) s
    else isValue (.afterName quoted) s
  | .braced quoted, c :: s => isValue (if c = '\x7d' then .afterName quoted else .braced quoted) s
  | .double, c :: s =>
    isValue (if c = '$' then .name true true else if c = '"' then .plain
      else if c = '\\' then .escape true else .double) s
  | .plain, c :: s =>
    isValue (if c = '$' then .name false true else if c = '\'' then .single
      else if c = '"' then .double else if c = '\\' then .escape false
      else if c = ' ' ∨ c = '\t' then .ended else .plain) s

def isKeyStart (c : Char) : Bool := c.isAlpha || c == '_'

def isKeyChar (c : Char) : Bool := c.isAlphanum || c == '_' || c == '.'

/-- A key, and what follows it and the blanks behind it. -/
def key? (s : List Char) : Option (List Char × List Char) :=
  match s with
  | [] => none
  | c :: _ => if isKeyStart c then some (s.takeWhile isKeyChar, skipBlanks (s.dropWhile isKeyChar)) else none

def equals? : List Char → Option (List Char)
  | '=' :: s => some s
  | _ => none

/-- What follows the equals sign of a setting, whose key may have `export` in front. -/
def assigned? (s : List Char) : Option (List Char) := do
  let (key, s) ← key? s
  match equals? s with
  | some s => return skipBlanks s
  | none =>
    guard (key = "export".toList)
    let (_, s) ← key? s
    return skipBlanks (← equals? s)

/-- The part of a line that a fault is reported with: the value, or the whole line if it goes wrong
before the value. -/
def lineFault? (line : List Char) : Option (List Char) :=
  let s := skipBlanks ((line.reverse.dropWhile isBlank).reverse)
  if s.isEmpty || isComment s then none
  else
    match assigned? s with
    | none => some line
    | some value => if isComment value || isValue .plain value then none else some value

def dropMark : List Char → List Char
  | '\ufeff' :: s => s
  | s => s

/-- The text that the first fault of a file is reported with. -/
def fault? (text : List Char) : Option (List Char) :=
  (lines .nothing [] (physicalLines (dropMark text))).findSome? fun line =>
    match line with
    | .ok line => lineFault? line
    | .error unfinished => some unfinished

def occursIn (word : List Char) : List Char → Bool
  | [] => word.isEmpty
  | c :: s => word.isPrefixOf (c :: s) || occursIn word s

/-- A fault is worth a warning unless its report reads as if the file did not exist. -/
def warns (text : List Char) : Bool :=
  (fault? text).any fun shown => !occursIn "not found".toList shown

end MemoryBus.Command.Settings
