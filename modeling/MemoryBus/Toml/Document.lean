import MemoryBus.Toml.Line

/-! The table that the lines of a TOML document build. -/
namespace MemoryBus.Toml

/-- A document that is being built. The table of the last header is kept apart from the root until
the next header. -/
structure Draft where
  root : Table
  header : Option (Bool × List String × String)
  current : Table

namespace Draft

def empty : Draft := ⟨.empty .header, none, .empty .header⟩

/-- Puts the current table where its header says. -/
def close (d : Draft) : Option Table :=
  match d.header with
  | none => some d.current
  | some (ofTables, path, key) =>
    (d.root.alter false path fun parent =>
      match ofTables, parent.get? key with
      | true, none => some ((), parent.set key (.array true [d.current.toValue]))
      | true, some (.array true items) => some ((), parent.set key (.array true (items ++ [d.current.toValue])))
      | true, some _ => none
      | false, _ => some ((), parent.set key d.current.toValue)).map (·.2)

/-- Starts the table of a header. A table that was only implied so far is taken over; any other of
that name is defined twice. -/
def start (root : Table) (path : List String) (key : String) : Option (Table × Table) :=
  root.alter false path fun parent =>
    match parent.get? key with
    | none => some (.empty .header, parent)
    | some (.table .implied entries) => some (⟨.header, entries⟩, parent.erase key)
    | some _ => none

def add (d : Draft) : Line → Option Draft
  | .entry path key v => (d.current.insert path key v).map fun current => { d with current }
  | .header true path key => do
    let root ← d.close
    return ⟨root, some (true, path, key), .empty .header⟩
  | .header false path key => do
    let (current, root) ← start (← d.close) path key
    return ⟨root, some (false, path, key), current⟩

end Draft

namespace Table

def ofLines? (lines : List Line) : Option Table := do
  (← lines.foldlM Draft.add Draft.empty).close

def ofText? (s : List Char) : Option Table := do ofLines? (← Line.ofText? s)

end Table
end MemoryBus.Toml
