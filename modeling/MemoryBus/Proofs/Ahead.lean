import MemoryBus.Proofs.Lookup

/-! Which entries of a list are tried before which, and what a lookup changes of it. -/
namespace MemoryBus

theorem pair_sublist_iff {i j : Nat} {ys zs : List Nat} (hn : (ys ++ i :: zs).Nodup) :
    [j, i].Sublist (ys ++ i :: zs) ↔ j ∈ ys := by
  constructor
  · intro hsub
    induction ys with
    | nil =>
      obtain ⟨hi, -⟩ := List.nodup_cons.mp hn
      cases hsub with
      | cons _ hsub => exact absurd (hsub.subset (by simp)) hi
      | cons_cons _ hsub => exact absurd (hsub.subset (by simp)) hi
    | cons y ys ih =>
      cases hsub with
      | cons _ hsub => exact List.mem_cons_of_mem _ (ih (List.nodup_cons.mp hn).2 hsub)
      | cons_cons _ _ => exact List.mem_cons_self
  · intro hj
    exact (List.singleton_sublist.mpr hj).append (List.singleton_sublist.mpr (by simp))

namespace Table

variable {t : Table} {a : UInt32} {i j k : Nat}

/-- Lookups try entry `j` before entry `i`; neither is the guard. -/
def Ahead (t : Table) (j i : Nat) : Prop := [j, i].Sublist t.recency

/-- Some lookup finds entry `i`, which is not the guard. -/
def Live (t : Table) (i : Nat) : Prop := i < t.guardIndex ∧ ∃ a, (t.find a).1.index = i

theorem Ahead.lt (h : t.Ahead j i) : j < t.guardIndex ∧ i < t.guardIndex :=
  ⟨mem_recency.mp (List.Sublist.subset h (by simp)), mem_recency.mp (List.Sublist.subset h (by simp))⟩

theorem ahead_iff_mem {ys zs : List Nat} (heq : t.recency = ys ++ i :: zs) : t.Ahead j i ↔ j ∈ ys := by
  rw [Ahead, heq]
  exact pair_sublist_iff (heq ▸ t.nodup_recency)

theorem ahead_or_ahead (hi : i < t.guardIndex) (hj : j < t.guardIndex) (hne : i ≠ j) :
    t.Ahead i j ∨ t.Ahead j i := by
  obtain ⟨ys, zs, heq⟩ := List.append_of_mem (mem_recency.mpr hi)
  have hmem : j ∈ ys ∨ j ∈ zs := by
    have := mem_recency.mpr hj
    rw [heq] at this
    simpa [Ne.symm hne] using this
  rcases hmem with hys | hzs
  · exact .inr ((ahead_iff_mem heq).mpr hys)
  · refine .inl ?_
    rw [Ahead, heq]
    exact ((List.singleton_sublist.mpr hzs).cons_cons i).trans (List.sublist_append_right ys _)

/-- A lookup passes every entry ahead of the one that it finds. -/
theorem not_owns_of_ahead (h : t.Ahead j (t.find a).1.index) : (t.entry j).owns a = false := by
  obtain ⟨ys, i, zs, heq, hys, -, hfound, -⟩ | ⟨hnone, -, -⟩ := t.find_cases a
  · rw [hfound] at h
    exact hys j ((ahead_iff_mem heq).mp h)
  · exact hnone j (List.Sublist.subset h (by simp))

theorem index_find_of_ahead (hi : i < t.guardIndex) (ho : (t.entry i).owns a = true)
    (hahead : ∀ j, t.Ahead j i → (t.entry j).owns a = false) : (t.find a).1.index = i := by
  by_cases hne : (t.find a).1.index = i
  · exact hne
  · rcases ahead_or_ahead (index_find_lt hi ho) hi hne with hf | hf
    · exact absurd (owns_of_find (t := t) (a := a)) (by simp [hahead _ hf])
    · exact absurd ho (by simp [not_owns_of_ahead hf])

/-- Nothing is ahead of the entry that was found last. -/
theorem not_ahead_find (hlt : (t.find a).1.index < t.guardIndex) :
    ¬ (t.find a).2.Ahead j (t.find a).1.index := by
  intro hahead
  have hmem := (ahead_iff_mem ((recency_find_of_lt hlt).trans (List.nil_append _).symm)).mp hahead
  exact absurd hmem (by simp)

/-- The entry that was found last is found again by every address that it owns. -/
theorem index_find_find {c : UInt32} (hlt : (t.find c).1.index < t.guardIndex)
    (ho : (t.entry (t.find c).1.index).owns a = true) :
    ((t.find c).2.find a).1.index = (t.find c).1.index :=
  index_find_of_ahead (by simpa using hlt) (by simpa using ho) fun _ hj => absurd hj (not_ahead_find hlt)

/-- A lookup puts an entry ahead of another only by an address that the other does not own. -/
theorem ahead_find (h : (t.find a).2.Ahead j i) : t.Ahead j i ∨
    j = (t.find a).1.index ∧ (t.entry j).owns a = true ∧ (t.entry i).owns a = false := by
  rcases Nat.lt_or_eq_of_le (index_find_le (t := t) (a := a)) with hlt | hguard
  · have hi : i < t.guardIndex := by simpa using h.lt.2
    have hne : i ≠ (t.find a).1.index := fun heq => not_ahead_find hlt (heq ▸ h)
    rw [Ahead, recency_find_of_lt hlt] at h
    cases h with
    | cons _ hsub => exact .inl (hsub.trans List.filter_sublist)
    | cons_cons _ _ =>
      rcases ahead_or_ahead hi hlt hne with hahead | hahead
      · exact .inr ⟨rfl, owns_of_find, not_owns_of_ahead hahead⟩
      · exact .inl hahead
  · rw [Ahead, recency_find_of_guard hguard] at h
    exact .inl h

theorem Ahead.find (h : t.Ahead j i) (hne : i ≠ (t.find a).1.index) : (t.find a).2.Ahead j i := by
  rcases Nat.lt_or_eq_of_le (index_find_le (t := t) (a := a)) with hlt | hguard
  · rw [Ahead, recency_find_of_lt hlt]
    by_cases hj : j = (t.find a).1.index
    · subst hj
      refine (List.singleton_sublist.mpr ?_).cons_cons _
      simp [mem_recency.mpr h.lt.2, hne]
    · refine List.Sublist.cons _ ?_
      simpa [hj, hne] using List.Sublist.filter (· ≠ (t.find a).1.index) h
  · rw [Ahead, recency_find_of_guard hguard]
    exact h

end Table
end MemoryBus
