import MemoryBus.Proofs.Bounds

/-! Tables in which no two ranges share an address: a lookup finds the same range in whatever order
the list stands. -/
namespace MemoryBus

namespace Table

variable {t u : Table} {a : UInt32} {i : Nat}

/-- No address is owned by two entries other than the guard. -/
def Disjoint (t : Table) : Prop :=
  ∀ i j a, i < t.guardIndex → j < t.guardIndex →
    (t.entry i).owns a = true → (t.entry j).owns a = true → i = j

theorem Disjoint.of_entries (ht : t.Disjoint) (h : t.entries = u.entries) : u.Disjoint := by
  unfold Disjoint
  rw [← entry_of_entries h, ← guardIndex_of_entries h]
  exact ht

theorem disjoint_guardOnly : guardOnly.Disjoint := by
  intro i j a hi
  exact absurd hi (by simp [guardIndex, guardOnly])

/-- Ranges that compare the same bits with different values share no address. -/
theorem disjoint_of_mask (m : UInt32) (hmask : ∀ i < t.guardIndex, (t.entry i).mask = m)
    (hvalue : ∀ i < t.guardIndex, ∀ j < t.guardIndex, (t.entry i).value = (t.entry j).value → i = j) :
    t.Disjoint := by
  intro i j a hi hj ho ho'
  refine hvalue i hi j hj ?_
  simp only [Range.owns, hmask i hi, hmask j hj, beq_iff_eq] at ho ho'
  exact ho.symm.trans ho'

/-- The one range that owns an address is found. -/
theorem Disjoint.index_find (ht : t.Disjoint) (hi : i < t.guardIndex)
    (ho : (t.entry i).owns a = true) : (t.find a).1.index = i :=
  ht _ i a (index_find_lt hi ho) hi owns_of_find ho

/-- The order of the list makes no difference to a lookup. -/
theorem Disjoint.index_find_eq (ht : t.Disjoint) (h : t.entries = u.entries) :
    (t.find a).1.index = (u.find a).1.index := by
  have hu := ht.of_entries h
  rcases Nat.lt_or_eq_of_le (index_find_le (t := u) (a := a)) with hlt | hguard
  · refine ht.index_find (guardIndex_of_entries h ▸ hlt) ?_
    rw [entry_of_entries h]
    exact owns_of_find
  · rw [hguard, ← guardIndex_of_entries h]
    refine Nat.le_antisymm index_find_le (Nat.le_of_not_lt fun hlt => ?_)
    have ho : (u.entry (t.find a).1.index).owns a = true := by
      rw [← entry_of_entries h]
      exact owns_of_find
    have hsame := hu.index_find (guardIndex_of_entries h ▸ hlt) ho
    rw [hguard, ← guardIndex_of_entries h] at hsame
    omega

theorem Disjoint.range_find_eq (ht : t.Disjoint) (h : t.entries = u.entries) :
    (t.find a).1.range = (u.find a).1.range := by
  rw [range_of_find, range_of_find, ht.index_find_eq h, entry_of_entries h]

end Table

variable {m m' : MemoryMap}

/-- A sound map with a disjoint table. -/
structure MemoryMap.Tidy (m : MemoryMap) : Prop where
  sound : m.Sound
  disjoint : m.table.Disjoint

namespace MemoryMap

theorem tidy_ofBanks (banks : Banks) : (ofBanks banks).Tidy :=
  ⟨sound_ofBanks banks, Table.disjoint_guardOnly⟩

theorem disjoint_change (hm : m.table.Disjoint) (hc : Change Table.Disjoint m m') :
    m'.table.Disjoint := by
  rcases hc.cases with ⟨a, rfl⟩ | ⟨t, ht, hi⟩ | ⟨ht, -, -⟩
  · exact hm.of_entries Table.entries_find.symm
  · obtain ⟨-, rfl⟩ := install_ok hi
    exact ht
  · exact ht ▸ hm

theorem Tidy.change (hm : m.Tidy) (hc : Change Table.Disjoint m m') : m'.Tidy :=
  ⟨hm.sound.change hc, disjoint_change hm.disjoint hc⟩

end MemoryMap

theorem MemoryMap.lasting_tidy : MemoryMap.Lasting MemoryMap.Tidy where
  find a hm := hm.change (.find _ a)
  fill hm hk ha := ⟨hm.sound.fill hk ha, (hm.change (.find _ _)).disjoint⟩
  banks hm hb := ⟨hm.sound.of_same rfl rfl (hb ▸ List.prefix_rfl), hm.disjoint⟩
  note e hm := hm.change (.note _ e)

end MemoryBus
