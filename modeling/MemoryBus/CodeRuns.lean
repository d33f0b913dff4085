/-! Sets of characters, given as runs of code points. -/
namespace MemoryBus

/-- The first and last code point of each run. -/
abbrev CodeRuns := List (Nat × Nat)

def CodeRuns.has (runs : CodeRuns) (c : Char) : Bool :=
  runs.any fun (first, last) => first ≤ c.toNat && c.toNat ≤ last

end MemoryBus
