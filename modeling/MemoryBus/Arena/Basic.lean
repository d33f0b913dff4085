import MemoryBus.Range

/-! Ranges in an arena, linked into a list that lookups splice in place. The last range of the arena is
a guard that owns every address and ends the list. -/
namespace MemoryBus

/-- A range, and the number of the range after it in the list. -/
structure Node where
  range : Range
  next : Option Nat
  deriving DecidableEq, Inhabited

structure Arena where
  nodes : Array Node
  head : Nat
  deriving DecidableEq, Inhabited

/-- What a lookup found: the entry, and how many entries stood before it in the list. -/
structure Lookup where
  index : Nat
  range : Range
  depth : Nat
  promoted : Bool
  deriving DecidableEq

/-- Where a walk along the links stopped, the entry before that, and the number of links followed. -/
structure Stop where
  before : Nat
  index : Nat
  depth : Nat
  deriving DecidableEq

namespace Arena

def size (g : Arena) : Nat := g.nodes.size

/-- Entries are numbered in the order of building, the guard last. -/
def guardIndex (g : Arena) : Nat := g.nodes.size - 1

def range (g : Arena) (i : Nat) : Range := (g.nodes[i]?.map (·.range)).getD .guard

def next? (g : Arena) (i : Nat) : Option Nat := g.nodes[i]?.bind (·.next)

def ranges (g : Arena) : List Range := g.nodes.toList.map (·.range)

/-- The entries that following the links from `cursor` visits, as far as `fuel` reaches. -/
def follow (g : Arena) : Nat → Option Nat → List Nat
  | 0, _ => []
  | _ + 1, none => []
  | fuel + 1, some i => i :: g.follow fuel (g.next? i)

/-- The entries' numbers in the order in which a lookup tries them. -/
def order (g : Arena) : List Nat := g.follow g.size (some g.head)

/-- The order without the guard. -/
def recency (g : Arena) : List Nat := g.order.dropLast

/-- Walks on from `before` to the first entry that owns `a`, or to the end of the list. -/
def seek (g : Arena) (a : UInt32) : Nat → Nat → Nat → Stop
  | 0, before, depth => ⟨before, before, depth⟩
  | fuel + 1, before, depth =>
    match g.next? before with
    | none => ⟨before, before, depth⟩
    | some i => if (g.range i).owns a then ⟨before, i, depth + 1⟩ else g.seek a fuel i (depth + 1)

def setNext (g : Arena) (i : Nat) (next : Option Nat) : Arena :=
  { g with nodes := g.nodes.modify i fun n => { n with next } }

/-- Takes entry `i` out of the list, where it follows `before`, and puts it in front. -/
def promote (g : Arena) (before i : Nat) : Arena :=
  { (g.setNext before (g.next? i)).setNext i (some g.head) with head := i }

/-- The first entry of the list that owns `a`. One that is neither in front nor at the end moves to
the front. -/
def find (g : Arena) (a : UInt32) : Lookup × Arena :=
  if (g.range g.head).owns a then (⟨g.head, g.range g.head, 0, false⟩, g)
  else
    let stop := g.seek a g.size g.head 0
    let found := Lookup.mk stop.index (g.range stop.index) stop.depth
    match g.next? stop.index with
    | none => (found false, g)
    | some _ => (found true, g.promote stop.before stop.index)

/-- `ranges` and then `guard`, linked in that order. -/
def ofRanges (ranges : List Range) (guard : Range) : Arena where
  nodes := ((ranges ++ [guard]).zipIdx.map fun (r, i) =>
    ⟨r, if i < ranges.length then some (i + 1) else none⟩).toArray
  head := 0

end Arena
end MemoryBus
