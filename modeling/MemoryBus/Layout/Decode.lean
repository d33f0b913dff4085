import MemoryBus.Error
import MemoryBus.Layout.Basic
import MemoryBus.Toml.Document

/-! Layouts read from TOML. A bank or a range is a table, or an array with its fields in order. Keys
that have no meaning are ignored, but their values are read; elements behind the last field are not. -/
namespace MemoryBus

open Toml (Value)

namespace Layout

/-- The value of a field: by its key in a table, by its place in an array. -/
abbrev Fields := String → Nat → Option Value

/-- Whether the values of all keys but the known ones can be read. -/
def othersAreSound (known : List String) (entries : List (String × Value)) : Bool :=
  entries.all fun (key, v) => known.contains key || v.isSound

def fields? (known : List String) : Value → Option Fields
  | .table _ entries =>
    if othersAreSound known entries then some fun key _ => entries.lookup key else none
  | .array _ items => some fun _ place => items[place]?
  | _ => none

def text? : Value → Option String
  | .text s => some s
  | _ => none

def below? (bound : Nat) : Value → Option Nat
  | .integer n => if 0 ≤ n ∧ n < bound then some n.toNat else none
  | _ => none

def word? (v : Value) : Option UInt32 := (below? UInt32.size v).map (·.toUInt32)

/-- A field that may be missing, but not be wrong. -/
def orElse {α : Type} (v : Option Value) (missing : α) (f : Value → Option α) : Option α :=
  match v with
  | none => some missing
  | some v => f v

/-- A name, or a table that has nothing but that name as a key, with an empty value. -/
def accessKind? : Value → Option AccessKind
  | .text s => AccessKind.ofName? s
  | .table _ [(key, .array _ [])] => AccessKind.ofName? key
  | .table _ [(key, .table _ [])] => AccessKind.ofName? key
  | _ => none

def list? {α : Type} (f : Value → Option α) : Value → Option (List α)
  | .array _ items => items.mapM f
  | _ => none

def bank? (v : Value) : Option BankLayout := do
  let field ← fields? ["name", "size"] v
  let name ← text? (← field "name" 0)
  let size ← below? UInt64.size (← field "size" 1)
  return ⟨name, size⟩

def range? (v : Value) : Option RangeLayout := do
  let field ← fields? ["name", "cmp_mask", "cmp_value", "access", "bank", "base", "use_mask", "tag"] v
  let name ← text? (← field "name" 0)
  let mask ← word? (← field "cmp_mask" 1)
  let value ← word? (← field "cmp_value" 2)
  let access ← orElse (field "access" 3) [] (list? accessKind?)
  let bank ← orElse (field "bank" 4) none fun v => (text? v).map some
  let base ← orElse (field "base" 5) 0 word?
  let useMask ← orElse (field "use_mask" 6) 0 word?
  let tag ← orElse (field "tag" 7) 0 word?
  return ⟨name, mask, value, access, bank, base, useMask, tag⟩

def ofTable? (t : Toml.Table) : Option Layout := do
  guard (othersAreSound ["bank", "range"] t.entries)
  let banks ← orElse (t.get? "bank") [] (list? bank?)
  let ranges ← orElse (t.get? "range") [] (list? range?)
  return ⟨banks, ranges⟩

def parse? (text : List Char) : Option Layout := do ofTable? (← Toml.Table.ofText? text)

def ofText (text : String) : Except MemoryError Layout :=
  match parse? text.toList with
  | some l => .ok l
  | none => .error .unreadableLayout

/-- Reads a layout file, or says why there is none. -/
def ofFile (file : Except FileError ByteArray) : Except MemoryError Layout :=
  match file with
  | .error e => .error (.file e)
  | .ok bytes =>
    match String.fromUTF8? bytes with
    | none => .error (.file .invalidData)
    | some text => ofText text

end Layout
end MemoryBus
