import MemoryBus.Proofs.Expansion
import MemoryBus.Proofs.Faults
import MemoryBus.Proofs.Scanning

/-! The windows of the Mac Plus, before its expansion window is mapped and after. -/
namespace MemoryBus.Demo

def ram : Range := ⟨0x00C00000, 0x00000000, .union .read .write, some ⟨0, 0, 0x003FFFFF⟩, 0⟩

def rom : Range := ⟨0x00F00000, 0x00400000, .read, some ⟨1, 0, 0x0001FFFF⟩, 0⟩

def scc : Range := ⟨0x00C00000, 0x00800000, .device, none, Tag.scc.number⟩

def iwm : Range := ⟨0x00E00000, 0x00C00000, .device, none, Tag.iwm.number⟩

def via : Range := ⟨0x00F00000, 0x00E00000, .device, none, Tag.via.number⟩

/-- The expansion window, which is mapped or notifies the machine. -/
def expansion (isMapped : Bool) : Range :=
  if isMapped then
    ⟨0x00F80000, 0x00F00000, .union .read .write, some ⟨2, 0, 0x0007FFFF⟩, Tag.expansion.number⟩
  else ⟨0x00F80000, 0x00F00000, .notify, none, Tag.expansion.number⟩

def windows (isMapped : Bool) : List Range := [ram, rom, scc, iwm, via, expansion isMapped]

/-- The names and sizes of the banks. -/
def shape : List (String × Nat) := Layout.macPlus.banks.map fun k => (k.name, k.size)

/-- The machine's layout. -/
def layoutOf (isMapped : Bool) : Layout :=
  if isMapped then (mapped? .macPlus).getD .macPlus else .macPlus

variable {s : Banks} {m : MemoryMap} {t : Table} {r : Range} {a : UInt32} {isMapped : Bool}

theorem mapped?_macPlus : mapped? .macPlus = some (layoutOf true) := rfl

theorem ranges_layoutOf (hs : s.shape = shape) (isMapped : Bool) :
    (layoutOf isMapped).ranges.mapM (Layout.buildRange s) = .ok (windows isMapped) := by
  cases isMapped with
  | false =>
    simp [layoutOf, Layout.macPlus, Layout.buildRange, Banks.find?_eq, hs, shape, RangeLayout.ofAccess,
      List.findIdx?_cons]
    rfl
  | true =>
    simp [layoutOf, mapped?, Layout.expanded, Layout.isUnmapped, Layout.macPlus, Layout.buildRange, Banks.find?_eq,
      hs, shape, RangeLayout.ofAccess, List.findIdx?_cons]
    rfl

theorem fits_windows (hs : s.shape = shape) (isMapped : Bool) : ∀ r ∈ windows isMapped, r.Fits s.sizes := by
  rw [← Banks.map_snd_shape, hs]
  simp only [← Range.misfit_eq_none (i := 0)]
  cases isMapped <;> decide

theorem disjoint_of_entries (ht : t.entries = windows isMapped ++ [.guard]) : t.Disjoint := by
  have hguard : t.guardIndex = 6 := by rw [Table.guardIndex_eq, ht]; rfl
  rw [Table.disjoint_iff, hguard]
  simp only [Table.entry_eq, ht]
  cases isMapped <;> decide

/-- A lookup finds the window that owns the address. -/
theorem range_find (ht : t.entries = windows isMapped ++ [.guard]) (hr : r ∈ windows isMapped)
    (ho : r.owns a = true) : (t.find a).1.range = r := by
  have hguard : t.guardIndex = (windows isMapped).length := by rw [Table.guardIndex_eq, ht]; simp
  obtain ⟨i, hi, hentry⟩ := List.mem_iff_getElem.mp hr
  have hi' : t.entry i = r := by
    rw [Table.entry_eq, ht, List.getElem?_append_left hi, List.getElem?_eq_getElem hi, hentry]
    rfl
  rw [Table.range_of_find, (disjoint_of_entries ht).index_find (hguard ▸ hi) (hi' ▸ ho), hi']

/-- The table of the layout can be put in force. -/
theorem exists_remap (hs : m.banks.shape = shape) (isMapped : Bool) :
    ∃ t m', remap (layoutOf isMapped) m = .ok m' ∧ m.install t = .ok m' ∧
      t.entries = windows isMapped ++ [.guard] := by
  have hranges := ranges_layoutOf hs isMapped
  obtain ⟨t, m', hbuild, hi⟩ := Layout.exists_install hranges (fits_windows hs isMapped)
  obtain ⟨rs, hrs, ht⟩ := Layout.buildTable_ok_iff.mp hbuild
  obtain rfl := Except.ok.inj (hranges.symm.trans hrs)
  refine ⟨t, m', ?_, hi, Table.entries_of_build ht⟩
  simp [remap, hbuild, hi, Except.mapError, bind, Except.bind]

end MemoryBus.Demo
