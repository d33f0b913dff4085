import MemoryBus.Proofs.Disjoint
import MemoryBus.Proofs.Recency

/-! Where an address goes does not depend on what was looked up before: a table whose ranges share no
address answers like a scan of its entries that moves none of them. -/
namespace MemoryBus

/-- Two sets of bits that agree where both masks compare, as far as the mask of the first goes. -/
theorem or_and_eq_left {x y m n : UInt32} (hx : x &&& m = x) (hy : y &&& m = x &&& n) :
    (x ||| y) &&& m = x := by
  have habsorb : x ||| x &&& n = x := UInt32.toBitVec_inj.1 (by ext i hi; simp +contextual)
  rw [or_and_distrib, hx, hy, habsorb]

namespace Range

variable {r s : Range}

/-- The two ranges share an address, said of their bits: neither value has a bit that its own mask leaves
out, and the values agree on the bits that both masks compare. -/
def Meets (r s : Range) : Prop :=
  r.value &&& r.mask = r.value ∧ s.value &&& s.mask = s.value ∧
    r.value &&& s.mask = s.value &&& r.mask

instance (r s : Range) : Decidable (r.Meets s) := by
  unfold Meets
  infer_instance

theorem meets_iff : r.Meets s ↔ ∃ a, r.owns a = true ∧ s.owns a = true := by
  constructor
  · rintro ⟨hr, hs, hboth⟩
    -- The bits of both values are an address that both ranges own.
    refine ⟨r.value ||| s.value, ?_, ?_⟩
    · simpa [owns] using or_and_eq_left hr hboth.symm
    · simpa [owns, UInt32.or_comm] using or_and_eq_left hs hboth
  · rintro ⟨a, hr, hs⟩
    simp only [owns, beq_iff_eq] at hr hs
    refine ⟨?_, ?_, ?_⟩
    · rw [← hr, UInt32.and_assoc, UInt32.and_self]
    · rw [← hs, UInt32.and_assoc, UInt32.and_self]
    · rw [← hr, ← hs, UInt32.and_assoc, UInt32.and_assoc, UInt32.and_comm r.mask]

end Range

namespace Table

variable {t : Table} {rs : List Range} {guard : Range} {a : UInt32} {i : Nat}

theorem disjoint_iff : t.Disjoint ↔ ∀ i, i < t.guardIndex → ∀ j, j < t.guardIndex →
    (t.entry i).Meets (t.entry j) → i = j := by
  constructor
  · intro ht i hi j hj hmeets
    obtain ⟨a, ho, ho'⟩ := Range.meets_iff.mp hmeets
    exact ht i j a hi hj ho ho'
  · intro ht i j a hi hj ho ho'
    exact ht i hi j hj (Range.meets_iff.mpr ⟨a, ho, ho'⟩)

instance (t : Table) : Decidable t.Disjoint := decidable_of_iff' _ disjoint_iff

/-- The first entry, in the order of building, that owns `a`. -/
def scan (t : Table) (a : UInt32) : Nat := t.entries.findIdx (·.owns a)

theorem scan_of_entries {u : Table} (h : t.entries = u.entries) : t.scan a = u.scan a := by
  rw [scan, scan, h]

theorem owns_scan (t : Table) (a : UInt32) : (t.entry (t.scan a)).owns a = true := by
  have hguard : t.guardIndex < t.entries.length := t.valid.threaded_recency.guardIndex_lt.trans_eq Arena.size_eq
  have hlt : t.scan a < t.entries.length := by
    refine List.findIdx_lt_length.mpr ⟨t.entries[t.guardIndex], List.getElem_mem hguard, ?_⟩
    have ho := guard_owns (t := t) (a := a)
    simpa [entry_eq, hguard] using ho
  have ho : (t.entries[t.scan a]).owns a = true := List.findIdx_getElem (p := fun r : Range => r.owns a)
  simpa [entry_eq, hlt] using ho

theorem not_owns_of_lt_scan (hi : i < t.scan a) : (t.entry i).owns a = false := by
  have ho := List.not_of_lt_findIdx hi
  have hlt : i < t.entries.length := Nat.lt_of_lt_of_le hi List.findIdx_le_length
  simpa [entry_eq, hlt] using ho

theorem scan_le (t : Table) (a : UInt32) : t.scan a ≤ t.guardIndex := by
  refine Nat.le_of_not_lt fun hlt => ?_
  exact absurd (not_owns_of_lt_scan hlt) (by simp)

/-- Where ranges share no address, moving them makes no difference. -/
theorem Disjoint.index_find_eq_scan (ht : t.Disjoint) (a : UInt32) : (t.find a).1.index = t.scan a := by
  rcases Nat.lt_or_eq_of_le (t.scan_le a) with hlt | hguard
  · exact ht.index_find hlt (t.owns_scan a)
  · rw [hguard]
    refine Nat.le_antisymm index_find_le (Nat.le_of_not_lt fun hlt => ?_)
    have hnone := not_owns_of_lt_scan (t := t) (a := a) (hguard ▸ hlt)
    exact absurd (owns_of_find.symm.trans hnone) (by simp)

/-- A run of lookups is answered like as many scans. -/
theorem Disjoint.hits_eq_map_scan (ht : t.Disjoint) (as : List UInt32) : t.hits as = as.map t.scan := by
  induction as using List.reverseRecOn with
  | nil => rfl
  | append_singleton as a ih =>
    have hafter : (t.after as).Disjoint := ht.of_entries entries_after.symm
    rw [hits_snoc, ih, hafter.index_find_eq_scan, scan_of_entries entries_after, List.map_append,
      List.map_singleton]

/-- In a table that is built from ranges which share no address, a lookup finds what a scan in the order
of building finds, whatever was looked up before: the one range that owns the address, or the guard if
none does. -/
theorem find_after_eq_scan (hbuild : build rs guard = .ok t) (ht : t.Disjoint) (as bs : List UInt32)
    (a : UInt32) :
    ((t.after as).find a).1.index = ((t.after bs).find a).1.index ∧
      ((t.after as).find a).1.range = ((t.after bs).find a).1.range ∧
      ((t.after as).find a).1.index = t.scan a ∧ t.hits as = as.map t.scan ∧
      ((∃ r, rs[t.scan a]? = some r ∧ ((t.after as).find a).1.range = r ∧ r.owns a = true ∧
          ∀ i s, rs[i]? = some s → s.owns a = true → i = t.scan a) ∨
        t.scan a = rs.length ∧ ((t.after as).find a).1.range = guard ∧ ∀ r ∈ rs, r.owns a = false) := by
  have hentries := entries_of_build hbuild
  have hguard := guardIndex_of_build hbuild
  have hfound (as : List UInt32) : ((t.after as).find a).1.index = t.scan a := by
    have hafter : (t.after as).Disjoint := ht.of_entries entries_after.symm
    rw [hafter.index_find_eq_scan, scan_of_entries entries_after]
  have hrange (as : List UInt32) : ((t.after as).find a).1.range = t.entry (t.scan a) := by
    rw [range_of_find, hfound, entry_after]
  have hentry {i : Nat} {s : Range} (hs : rs[i]? = some s) : i < t.guardIndex ∧ t.entry i = s := by
    obtain ⟨hi, rfl⟩ := List.getElem?_eq_some_iff.mp hs
    exact ⟨hguard ▸ hi, by simp [entry_eq, hentries, List.getElem?_append_left hi, hi]⟩
  refine ⟨(hfound as).trans (hfound bs).symm, (hrange as).trans (hrange bs).symm, hfound as,
    ht.hits_eq_map_scan as, ?_⟩
  rcases Nat.lt_or_eq_of_le (t.scan_le a) with hlt | heq
  · left
    have hget : rs[t.scan a]? = some rs[t.scan a] := List.getElem?_eq_getElem (hguard ▸ hlt)
    refine ⟨_, hget, (hrange as).trans (hentry hget).2, ?_, ?_⟩
    · rw [← (hentry hget).2]
      exact t.owns_scan a
    · intro i s hs ho
      obtain ⟨hi, rfl⟩ := hentry hs
      exact ht i _ a hi hlt ho (t.owns_scan a)
  · right
    refine ⟨heq.trans hguard, ?_, ?_⟩
    · rw [hrange, heq, hguard, entry_eq, hentries]
      simp
    · intro r hr
      obtain ⟨i, hi⟩ := List.mem_iff_getElem?.mp hr
      obtain ⟨hlt, rfl⟩ := hentry hi
      exact not_owns_of_lt_scan (heq ▸ hlt)

/-- Two windows and a mirrored one between them: the last lookup finds the second window, also where the
others were looked up before. -/
theorem find_after_eq_scan_windows : ∃ t, build [.ofAccess 0xFFFFFF00 0x0100 .device,
      .ofAccess 0x0000FF00 0x0200 .device, .ofAccess 0xFFFFFF00 0x0300 .device] .guard = .ok t ∧
    t.Disjoint ∧ t.scan 0xABCD0210 = 1 ∧
    ((t.after [0x0110, 0x0310, 0x0210, 0x0400]).find 0xABCD0210).1.index = 1 ∧
    ((t.after [0x0310]).find 0xABCD0210).1.index = 1 := by
  obtain ⟨t, hbuild, ht, hscan⟩ : ∃ t, build [.ofAccess 0xFFFFFF00 0x0100 .device,
      .ofAccess 0x0000FF00 0x0200 .device, .ofAccess 0xFFFFFF00 0x0300 .device] .guard = .ok t ∧
      t.Disjoint ∧ t.scan 0xABCD0210 = 1 :=
    ⟨⟨.ofRanges _ _, .zero, _⟩, rfl, by decide, rfl⟩
  obtain ⟨hsame, -, hfound, -⟩ :=
    find_after_eq_scan hbuild ht [0x0110, 0x0310, 0x0210, 0x0400] [0x0310] 0xABCD0210
  have hfirst := hfound.trans hscan
  exact ⟨t, hbuild, ht, hscan, hfirst, hsame.symm.trans hfirst⟩

end Table
end MemoryBus
