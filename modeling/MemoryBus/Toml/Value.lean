/-! Values of a TOML document, and the rules by which its tables grow. -/
namespace MemoryBus.Toml

/-- How a table came to be, which decides what may still be added to it. -/
inductive TableKind
  /-- The root, or a table with a header of its own. -/
  | header
  /-- A table on the way to a header. -/
  | implied
  /-- A table on the way to a dotted key. -/
  | dotted
  /-- A table in braces. -/
  | inline
  deriving DecidableEq, Repr

/-- The readers of this library use no floats and no times, so only their presence is kept. -/
inductive Value
  | text (s : String)
  | integer (n : Int)
  | float
  /-- A number that is written as one but has no value: digits are missing or foreign to its base, or
  it is too large. -/
  | badNumber
  | boolean (b : Bool)
  | time
  /-- `ofTables` marks the arrays that headers in double brackets build. -/
  | array (ofTables : Bool) (items : List Value)
  | table (kind : TableKind) (entries : List (String × Value))

mutual

/-- A value without bad numbers, which can be read even if it has no meaning to the reader. -/
def Value.isSound : Value → Bool
  | .badNumber => false
  | .array _ items => itemsAreSound items
  | .table _ entries => entriesAreSound entries
  | _ => true

def itemsAreSound : List Value → Bool
  | [] => true
  | v :: vs => v.isSound && itemsAreSound vs

def entriesAreSound : List (String × Value) → Bool
  | [] => true
  | (_, v) :: entries => v.isSound && entriesAreSound entries

end

structure Table where
  kind : TableKind
  entries : List (String × Value)

namespace Table

def empty (kind : TableKind) : Table := ⟨kind, []⟩

def toValue (t : Table) : Value := .table t.kind t.entries

def get? (t : Table) (key : String) : Option Value := t.entries.lookup key

/-- Replaces the value of a key in place, or adds the key at the end. -/
def set (t : Table) (key : String) (v : Value) : Table :=
  if t.entries.any (·.1 == key) then
    { t with entries := t.entries.map fun e => if e.1 == key then (key, v) else e }
  else { t with entries := t.entries ++ [(key, v)] }

def erase (t : Table) (key : String) : Table := { t with entries := t.entries.filter (·.1 != key) }

/-- The longest path to a table. -/
def maxPath : Nat := 80

/-- Changes the table at the end of a path, and makes the tables that are missing on the way. A path
leads into the last table of an array of tables. No path leads into a table in braces, and that of a
dotted key does not lead into a table with a header. -/
def alterAt {α : Type} (dotted : Bool) (f : Table → Option (α × Table)) :
    List String → Table → Option (α × Table)
  | [], t => f t
  | key :: path, t =>
    match t.get? key with
    | none => do
      let (a, child) ← alterAt dotted f path (empty (if dotted then .dotted else .implied))
      return (a, t.set key child.toValue)
    | some (.table kind entries) =>
      if kind = .inline ∨ (dotted ∧ kind = .header) then none
      else do
        let (a, child) ← alterAt dotted f path ⟨kind, entries⟩
        return (a, t.set key child.toValue)
    | some (.array true items) =>
      match items.getLast? with
      | some (.table kind entries) => do
        let (a, child) ← alterAt dotted f path ⟨kind, entries⟩
        return (a, t.set key (.array true (items.dropLast ++ [child.toValue])))
      | _ => none
    | some _ => none

def alter {α : Type} (dotted : Bool) (path : List String) (f : Table → Option (α × Table)) (t : Table) :
    Option (α × Table) :=
  if path.length < maxPath then alterAt dotted f path t else none

/-- Adds a key that is not there yet, under the tables that a dotted key names. -/
def insert (path : List String) (key : String) (v : Value) (t : Table) : Option Table :=
  (t.alter (!path.isEmpty) path fun parent =>
    if path.isEmpty = (parent.kind == .dotted) ∨ (parent.get? key).isSome then none
    else some ((), parent.set key v)).map (·.2)

end Table
end MemoryBus.Toml
