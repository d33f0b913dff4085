import MemoryBus.Layout.Basic
import MemoryBus.Toml.Printer

/-! Layouts written as TOML: a block for each bank and range, with an empty line between blocks. -/
namespace MemoryBus.Layout

open Toml.Printer

def bankBlock (k : BankLayout) : List Char :=
  "[[bank]]\n".toList ++ entry "name" (quote k.name.toList) ++ entry "size" (number k.size)

def bankEntry : Option String → List Char
  | some name => entry "bank" (quote name.toList)
  | none => []

def rangeBlock (r : RangeLayout) : List Char :=
  "[[range]]\n".toList ++ entry "name" (quote r.name.toList) ++ entry "cmp_mask" (number r.mask.toNat) ++
    entry "cmp_value" (number r.value.toNat) ++ entry "access" (list (r.access.map fun k => quote k.name.toList)) ++
    bankEntry r.bank ++ entry "base" (number r.base.toNat) ++ entry "use_mask" (number r.useMask.toNat) ++
    entry "tag" (number r.tag.toNat)

/-- A list without elements has no blocks, and is written as an empty array in front. -/
def emptyLists (l : Layout) : List Char :=
  (if l.banks.isEmpty then entry "bank" (list []) else []) ++
    (if l.ranges.isEmpty then entry "range" (list []) else [])

def blocks (l : Layout) : List (List Char) :=
  let front := emptyLists l
  (if front.isEmpty then [] else [front]) ++ l.banks.map bankBlock ++ l.ranges.map rangeBlock

def print (l : Layout) : List Char := ['\n'].intercalate l.blocks

/-- Expands one window after another; `false` when one of them is not there, with the layout so
far. -/
def expandAll (l : Layout) : List (String × String × UInt32) → Layout × Bool
  | [] => (l, true)
  | (range, bank, useMask) :: rest =>
    match l.expanded range bank useMask with
    | none => (l, false)
    | some l => l.expandAll rest

end MemoryBus.Layout
