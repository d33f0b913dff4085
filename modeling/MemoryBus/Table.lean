import MemoryBus.Arena.Valid
import MemoryBus.Hex

/-! The address table: ranges in a list that lookups reorder, with a guard that always ends it. -/
namespace MemoryBus

inductive TableError
  | invalidGuard (mask value : UInt32)
  | cacheableGuard
  | missingBacking (index : Nat)
  | unknownBank (index bank : Nat)
  | backingOutOfBounds (index bank last size : Nat)
  deriving DecidableEq, Repr

def TableError.message : TableError → String
  | invalidGuard mask value =>
    s!"Guard entry must match every address (mask {Hex.ofWord mask}, value {Hex.ofWord value})"
  | cacheableGuard => "Guard entry must not be readable or writable"
  | missingBacking index => s!"Range {index} is cacheable but has no backing buffer"
  | unknownBank index bank => s!"Range {index} refers to unknown bank {bank}"
  | backingOutOfBounds index bank last size =>
    s!"Range {index} reaches offset {Hex.padded last} past the end of bank {bank} ({size} bytes)"

/-- Counts of lookups, each kept in 64 bits by the machine. They are unbounded here, so that what is said of
them is said of a machine none of whose counts has reached `2 ^ 64`. -/
structure TableStats where
  lookups : Nat
  /-- Ranges compared after the first of the list. -/
  probes : Nat
  /-- Ranges moved to the front. -/
  promotions : Nat
  deriving DecidableEq, Repr, Inhabited

namespace TableStats

def zero : TableStats := ⟨0, 0, 0⟩

def add (s t : TableStats) : TableStats :=
  ⟨s.lookups + t.lookups, s.probes + t.probes, s.promotions + t.promotions⟩

end TableStats

/-- Ranges that lookups reorder, with a guard that always ends their list. -/
structure Table where
  arena : Arena
  stats : TableStats
  valid : arena.Valid
  deriving DecidableEq

namespace Table

def guardOnly : Table :=
  ⟨.ofRanges [] .guard, .zero, Arena.valid_ofRanges rfl rfl rfl (by simp)⟩

instance : Inhabited Table := ⟨guardOnly⟩

def guardIndex (t : Table) : Nat := t.arena.guardIndex

def size (t : Table) : Nat := t.arena.size

def entry (t : Table) (i : Nat) : Range := t.arena.range i

def entries (t : Table) : List Range := t.arena.ranges

def isLast (t : Table) (i : Nat) : Bool := (t.arena.next? i).isNone

/-- The entries' numbers in the order in which a lookup tries them. -/
def order (t : Table) : List Nat := t.arena.order

/-- The order without the guard. -/
def recency (t : Table) : List Nat := t.arena.recency

def head (t : Table) : Nat := t.arena.head

/-- The entries in the order in which a lookup tries them. -/
def listed (t : Table) : List Range := t.order.map t.entry

/-- The first entry of the list that owns `a`. A range that was not already in front moves there;
an address that no range owns goes to the guard, which stays where it is. -/
def find (t : Table) (a : UInt32) : Lookup × Table :=
  let result := t.arena.find a
  let found := result.1
  let promotions := t.stats.promotions + (if found.promoted then 1 else 0)
  (found, ⟨result.2, ⟨t.stats.lookups + 1, t.stats.probes + found.depth, promotions⟩, t.valid.find a⟩)

def resetStats (t : Table) : Table := { t with stats := .zero }

/-- The guard must own every address, and must not be served from a bank: a slot that held it would
hit for every address. A range that a bank serves must say where. -/
def build (ranges : List Range) (guard : Range) : Except TableError Table :=
  if hg : guard.mask ≠ 0 ∨ guard.value ≠ 0 then .error (.invalidGuard guard.mask guard.value)
  else if hc : guard.isCacheable then .error .cacheableGuard
  else
    match hb : ranges.findIdx? fun r => r.isCacheable && r.backing.isNone with
    | some index => .error (.missingBacking index)
    | none => .ok {
        arena := .ofRanges ranges guard
        stats := .zero
        valid := Arena.valid_ofRanges (by simp_all) (by simp_all) (by simpa using hc)
          (by simpa [List.findIdx?_eq_none_iff, Option.isSome_iff_ne_none] using hb) }

/-- What keeps range `r`, number `index`, from being served by banks of these sizes. -/
def misfit (sizes : List Nat) (index : Nat) (r : Range) : Option TableError :=
  if !r.isCacheable then none
  else
    match r.backing with
    | none => some (.missingBacking index)
    | some k =>
      match sizes[k.bank]? with
      | none => some (.unknownBank index k.bank)
      | some size =>
        if k.lastOffset < size then none
        else some (.backingOutOfBounds index k.bank k.lastOffset size)

/-- Reports the first entry, in the order of building, that reaches outside the banks. -/
def check (t : Table) (sizes : List Nat) : Except TableError Unit :=
  match t.entries.zipIdx.findSome? fun (r, i) => misfit sizes i r with
  | some e => .error e
  | none => .ok ()

/-- A new table of the same entries, built in their present order. -/
def rebuild (t : Table) : Except TableError Table :=
  build (t.recency.map t.entry) (t.entry t.guardIndex)

end Table
end MemoryBus
