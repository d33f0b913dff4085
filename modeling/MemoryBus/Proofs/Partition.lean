import MemoryBus.Proofs.Installing
import MemoryBus.Proofs.Pairing

/-! Mapping a window leaves every other window as it is, and all windows where they are: an address is found
in the same entry before and after. -/
namespace MemoryBus

theorem Range.owns_congr {r s : Range} (hmask : r.mask = s.mask) (hvalue : r.value = s.value) (a : UInt32) :
    r.owns a = s.owns a := by
  rw [owns, owns, hmask, hvalue]

namespace Layout

variable {l l' : Layout} {s s' : Banks} {t t' : Table} {range bank : String} {useMask : UInt32}
  {r : RangeLayout} {i : Nat}

theorem isUnmapped_iff : isUnmapped range r = true ↔ r.name = range ∧ .notify ∈ r.access := by
  simp [isUnmapped]

theorem expanded_eq_none_iff : l.expanded range bank useMask = none ↔
    ¬ ∃ r ∈ l.ranges, r.name = range ∧ .notify ∈ r.access := by
  simp only [← isUnmapped_iff, ← List.any_eq_true]
  unfold expanded
  split
  · exact iff_of_false (by simp) (not_not_intro ‹_›)
  · exact iff_of_true rfl ‹_›

/-- The range once it is mapped: where it is and what tells it apart stay. -/
def mappedTo (bank : String) (useMask : UInt32) (r : RangeLayout) : RangeLayout :=
  ⟨r.name, r.mask, r.value, [.read, .write], some bank, 0, useMask, r.tag⟩

theorem expanded_eq_some (h : l.expanded range bank useMask = some l') : l'.banks = l.banks ∧
    l'.ranges = l.ranges.map fun r => if isUnmapped range r then mappedTo bank useMask r else r := by
  unfold expanded at h
  split at h
  · obtain rfl := Option.some.inj h
    exact ⟨rfl, rfl⟩
  · cases h

/-- Where the layout has a table, it also has one with its windows mapped, if there is a bank to map them to. -/
theorem exists_buildTable_expanded (h : l.expanded range bank useMask = some l') (ht : l.buildTable s = .ok t)
    (hbank : ∃ b, s.name? b = some bank) : ∃ t', l'.buildTable s = .ok t' := by
  have hsound := exists_buildTable_iff.mp ⟨t, ht⟩
  obtain ⟨-, hranges⟩ := expanded_eq_some h
  apply exists_buildTable_iff.mpr
  intro r' hr'
  rw [hranges] at hr'
  obtain ⟨r, hr, rfl⟩ := List.mem_map.mp hr'
  by_cases hunmapped : isUnmapped range r = true
  · rw [if_pos hunmapped]
    constructor
    · intro name hname
      obtain rfl := Option.some.inj hname
      exact hbank
    · intro _ hnone
      cases hnone
  · rw [if_neg hunmapped]
    exact hsound r hr

/-- Tables with as many entries, which own the same addresses one by one, find each address in the same
entry, and go on to do so. -/
theorem hits_of_owners (hsize : t.size = t'.size) (horder : t.order = List.range t.size)
    (horder' : t'.order = List.range t'.size)
    (howns : ∀ i, i < t.size → ∀ a, (t.entry i).owns a = (t'.entry i).owns a) (as : List UInt32) :
    t.hits as = t'.hits as ∧ (t.after as).order = (t'.after as).order := by
  have hpaired : Table.Paired (fun i j => i = j ∧ i < t.size) t t' := by
    constructor
    · rintro i j ⟨rfl, hi⟩ a
      exact howns i hi a
    · rw [horder, horder', ← hsize]
      apply List.forall₂_same.mpr
      intro i hi
      exact ⟨rfl, List.mem_range.mp hi⟩
  have heq {l l' : List Nat} (h : List.Forall₂ (fun i j => i = j ∧ i < t.size) l l') : l = l' :=
    List.forall₂_eq_eq_eq ▸ h.imp fun i j hij => hij.1
  exact ⟨heq (hpaired.hits as), heq (hpaired.after as).order⟩

/-- Two layouts that put their ranges at the same addresses have tables with the same owners. -/
theorem owns_of_buildTable (hlength : l'.ranges.length = l.ranges.length)
    (hplace : ∀ (i : Nat) (r r' : RangeLayout), l.ranges[i]? = some r → l'.ranges[i]? = some r' →
      r'.mask = r.mask ∧ r'.value = r.value)
    (ht : l.buildTable s = .ok t) (ht' : l'.buildTable s' = .ok t') (hi : i < t.size) (a : UInt32) :
    (t.entry i).owns a = (t'.entry i).owns a := by
  have hlists := lists_of_buildTable ht
  have hlists' := lists_of_buildTable ht'
  have hle : i ≤ l.ranges.length := by
    have hsize := hlists.size
    omega
  rcases Nat.lt_or_eq_of_le hle with hlt | rfl
  · have hr : l.ranges[i]? = some l.ranges[i] := List.getElem?_eq_getElem hlt
    have hr' : l'.ranges[i]? = some l'.ranges[i] := List.getElem?_eq_getElem (hlength ▸ hlt)
    obtain ⟨hmask, hvalue⟩ := hplace i _ _ hr hr'
    have hx := hlists.entry i _ hr
    have hx' := hlists'.entry i _ hr'
    apply Range.owns_congr
    · rw [hx.mask, hx'.mask, hmask]
    · rw [hx.value, hx'.value, hvalue]
  · rw [hlists.guard, ← hlength, hlists'.guard]

/-- Mapping the windows of a name. Without a window of that name that notifies there is nothing to map. Otherwise
each such window is made one of bytes of the bank at the same addresses and under the same tag, and everything
else stays; no window of the name is left that could be mapped again. Wherever both layouts have tables, over
whatever banks, a run of lookups returns the same entries of both, and leaves both lists in the same order. -/
theorem expanded_keeps_partition (l : Layout) (range bank : String) (useMask : UInt32) :
    (l.expanded range bank useMask = none ↔ ¬ ∃ r ∈ l.ranges, r.name = range ∧ .notify ∈ r.access) ∧
      ∀ l', l.expanded range bank useMask = some l' →
        l'.banks = l.banks ∧ l'.ranges.length = l.ranges.length ∧
        (∀ (i : Nat) (r : RangeLayout), l.ranges[i]? = some r →
          (r.name = range ∧ .notify ∈ r.access → l'.ranges[i]? =
            some ⟨r.name, r.mask, r.value, [.read, .write], some bank, 0, useMask, r.tag⟩) ∧
          (¬ (r.name = range ∧ .notify ∈ r.access) → l'.ranges[i]? = some r)) ∧
        (∀ bank' useMask', l'.expanded range bank' useMask' = none) ∧
        ∀ s s' t t', l.buildTable s = .ok t → l'.buildTable s' = .ok t' → ∀ as : List UInt32,
          t.hits as = t'.hits as ∧ (t.after as).order = (t'.after as).order := by
  refine ⟨expanded_eq_none_iff, fun l' h => ?_⟩
  obtain ⟨hbanks, hranges⟩ := expanded_eq_some h
  have hlength : l'.ranges.length = l.ranges.length := by rw [hranges, List.length_map]
  have hget {i : Nat} {r : RangeLayout} (hr : l.ranges[i]? = some r) : l'.ranges[i]? =
      some (if isUnmapped range r then mappedTo bank useMask r else r) := by
    rw [hranges, List.getElem?_map, hr, Option.map_some]
  refine ⟨hbanks, hlength, ?_, expanded_expanded h, ?_⟩
  · intro i r hr
    rw [← isUnmapped_iff, hget hr]
    constructor
    · intro hunmapped
      rw [if_pos hunmapped]
      rfl
    · intro hkept
      rw [if_neg hkept]
  · intro s s' t t' ht ht' as
    have hlists := lists_of_buildTable ht
    have hlists' := lists_of_buildTable ht'
    have hplace (i : Nat) (r r' : RangeLayout) (hr : l.ranges[i]? = some r) (hr' : l'.ranges[i]? = some r') :
        r'.mask = r.mask ∧ r'.value = r.value := by
      obtain rfl := Option.some.inj (hr'.symm.trans (hget hr))
      split <;> exact ⟨rfl, rfl⟩
    apply hits_of_owners
    · rw [hlists.size, hlists'.size, hlength]
    · exact hlists.order
    · exact hlists'.order
    · intro i hi a
      exact owns_of_buildTable hlength hplace ht ht' hi a

/-- Two cards share a name, and one of them is mapped already; the other, which is a device too, overlaps it. -/
def cards : Layout where
  banks := [⟨"ram", 0x100⟩, ⟨"rom", 0x10⟩]
  ranges := [.ofAccess "slot" 0xFF00 0x0300 [.notify],
    { RangeLayout.ofAccess "card" 0xFF00 0x0100 [.device, .notify] with base := 7, tag := 2 },
    { RangeLayout.ofAccess "card" 0x000F 0x0001 [.read] with bank := some "rom", useMask := 0x000E }]

theorem expanded_keeps_partition_cards : ∃ l' s t t', cards.expanded "card" "ram" 0x00FF = some l' ∧
    cards.buildBanks = .ok s ∧ cards.buildTable s = .ok t ∧ l'.buildTable s = .ok t' ∧
    l'.ranges.map (·.access) = [[.notify], [.read, .write], [.read]] ∧
    t.hits [0x0101, 0x0201, 0x0101, 0x0100, 0x0300, 0x0400] = [1, 2, 2, 1, 0, 3] ∧
    t'.hits [0x0101, 0x0201, 0x0101, 0x0100, 0x0300, 0x0400] = [1, 2, 2, 1, 0, 3] := by
  obtain ⟨s, hs, hram, hrom⟩ : ∃ s, cards.buildBanks = .ok s ∧ s.name? 0 = some "ram" ∧
      s.find? "rom" = some 1 := by
    refine ⟨_, rfl, rfl, ?_⟩
    rw [Banks.find?_eq]
    rfl
  obtain ⟨t, hbuild, hhits⟩ : ∃ t, Table.build [⟨0xFF00, 0x0300, .notify, none, 0⟩,
      ⟨0xFF00, 0x0100, .union .device .notify, none, 2⟩,
      ⟨0x000F, 0x0001, .read, some ⟨1, 0, 0x000E⟩, 0⟩] .guard = .ok t ∧
      t.hits [0x0101, 0x0201, 0x0101, 0x0100, 0x0300, 0x0400] = [1, 2, 2, 1, 0, 3] :=
    ⟨⟨.ofRanges _ _, .zero, _⟩, rfl, by decide⟩
  have ht : cards.buildTable s = .ok t := by
    refine buildTable_ok_iff.mpr ⟨_, ?_, hbuild⟩
    simp only [cards, List.mapM_cons, List.mapM_nil, buildRange, RangeLayout.ofAccess, hrom]
    rfl
  obtain ⟨l', hl', haccess⟩ : ∃ l', cards.expanded "card" "ram" 0x00FF = some l' ∧
      l'.ranges.map (·.access) = [[.notify], [.read, .write], [.read]] := ⟨_, rfl, rfl⟩
  obtain ⟨t', ht'⟩ := exists_buildTable_expanded hl' ht ⟨0, hram⟩
  obtain ⟨-, hexpanded⟩ := expanded_keeps_partition cards "card" "ram" 0x00FF
  obtain ⟨-, -, -, -, hsame⟩ := hexpanded l' hl'
  obtain ⟨heq, -⟩ := hsame s s t t' ht ht' [0x0101, 0x0201, 0x0101, 0x0100, 0x0300, 0x0400]
  exact ⟨l', s, t, t', hl', hs, ht, ht', haccess, hhits, heq.symm.trans hhits⟩

end Layout
end MemoryBus
