import MemoryBus.Table

/-! What one lookup does to the list of a table, said without its links. -/
namespace MemoryBus.Table

variable {t u : Table} {a : UInt32} {i : Nat}

theorem entry_eq (i : Nat) : t.entry i = t.entries[i]?.getD .guard := Arena.range_eq i

theorem guardIndex_eq : t.guardIndex = t.entries.length - 1 := Arena.guardIndex_eq

theorem entry_of_entries (h : t.entries = u.entries) : t.entry = u.entry :=
  funext fun i => by simp only [entry_eq, h]

theorem guardIndex_of_entries (h : t.entries = u.entries) : t.guardIndex = u.guardIndex := by
  simp only [guardIndex_eq, h]

theorem order_eq (t : Table) : t.order = t.recency ++ [t.guardIndex] := t.valid.order_eq

theorem recency_perm (t : Table) : t.recency.Perm (List.range t.guardIndex) :=
  t.valid.threaded_recency.perm

theorem length_recency (t : Table) : t.recency.length = t.guardIndex := by
  simpa using t.recency_perm.length_eq

@[simp] theorem mem_recency : i ∈ t.recency ↔ i < t.guardIndex := t.valid.threaded_recency.mem_iff

theorem nodup_recency (t : Table) : t.recency.Nodup := t.recency_perm.nodup_iff.mpr List.nodup_range

theorem nodup_order (t : Table) : t.order.Nodup := t.order_eq ▸ t.valid.threaded_recency.nodup

theorem size_eq (t : Table) : t.size = t.guardIndex + 1 := by
  have hlt : t.guardIndex < t.size := t.valid.threaded_recency.guardIndex_lt
  have hguard : t.guardIndex = t.size - 1 := rfl
  omega

theorem order_perm (t : Table) : t.order.Perm (List.range t.size) := by
  rw [order_eq, size_eq, List.range_succ]
  exact t.recency_perm.append_right _

/-- The list is the entries in another order, but for the guard, which ends both. -/
theorem listed_of_entries {rs : List Range} {guard : Range} (h : t.entries = rs ++ [guard]) :
    ∃ rs', t.listed = rs' ++ [guard] ∧ rs'.Perm rs := by
  have hguard : t.guardIndex = rs.length := by simp [guardIndex_eq, h]
  have hentries : (List.range rs.length).map t.entry = rs := by
    refine List.ext_getElem (by simp) fun i hi hi' => ?_
    simp [entry_eq, h, List.getElem?_append_left hi', hi']
  refine ⟨t.recency.map t.entry, ?_, ?_⟩
  · simp [listed, order_eq, entry_eq, h, hguard]
  · rw [← hguard] at hentries
    exact hentries ▸ t.recency_perm.map t.entry

@[simp] theorem guard_owns : (t.entry t.guardIndex).owns a = true := t.valid.guard_owns a

/-- Either the first range of the list that owns `a` ends up in front of it, or no range owns `a`
and the guard takes it where it stands. -/
theorem find_cases (t : Table) (a : UInt32) :
    (∃ ys i zs, t.recency = ys ++ i :: zs ∧ (∀ j ∈ ys, (t.entry j).owns a = false) ∧
        (t.entry i).owns a = true ∧
        (t.find a).1 = ⟨i, t.entry i, ys.length, decide (ys ≠ [])⟩ ∧
        (t.find a).2.recency = i :: (ys ++ zs)) ∨
      (∀ j ∈ t.recency, (t.entry j).owns a = false) ∧
        (t.find a).1 = ⟨t.guardIndex, t.entry t.guardIndex, t.recency.length, false⟩ ∧
        (t.find a).2.recency = t.recency := by
  obtain ⟨ys, i, zs, heq, hys, hi, hfound, ht, -⟩ | ⟨hnone, hfound, hg⟩ := t.valid.find_cases a
  · exact .inl ⟨ys, i, zs, heq, hys, hi, hfound, ht.recency_eq⟩
  · exact .inr ⟨hnone, hfound, congrArg Arena.recency hg⟩

@[simp] theorem entries_find : (t.find a).2.entries = t.entries := by
  obtain ⟨_, _, _, _, _, _, _, _, hr⟩ | ⟨_, _, hg⟩ := t.valid.find_cases a
  · exact hr
  · exact congrArg Arena.ranges hg

@[simp] theorem guardIndex_find : (t.find a).2.guardIndex = t.guardIndex := by
  simp [guardIndex_eq]

@[simp] theorem entry_find : (t.find a).2.entry i = t.entry i := by simp [entry_eq]

theorem stats_find : (t.find a).2.stats =
    ⟨t.stats.lookups + 1, t.stats.probes + (t.find a).1.depth,
      t.stats.promotions + if (t.find a).1.promoted then 1 else 0⟩ := rfl

theorem range_of_find : (t.find a).1.range = t.entry (t.find a).1.index := by
  obtain ⟨_, _, _, _, _, _, hfound, _⟩ | ⟨_, hfound, _⟩ := t.find_cases a <;> rw [hfound]

theorem owns_of_find : (t.entry (t.find a).1.index).owns a = true := by
  obtain ⟨_, _, _, _, _, hi, hfound, _⟩ | ⟨_, hfound, _⟩ := t.find_cases a
  · rw [hfound]
    exact hi
  · rw [hfound]
    exact guard_owns

theorem range_owns_of_find : (t.find a).1.range.owns a = true := by
  rw [range_of_find]
  exact owns_of_find

theorem index_find_le : (t.find a).1.index ≤ t.guardIndex := by
  obtain ⟨ys, i, zs, heq, _, _, hfound, _⟩ | ⟨_, hfound, _⟩ := t.find_cases a
  · have hi : i < t.guardIndex := mem_recency.mp (by simp [heq])
    simpa [hfound] using Nat.le_of_lt hi
  · simp [hfound]

/-- An address that some entry other than the guard owns is not left to the guard. -/
theorem index_find_lt (hi : i < t.guardIndex) (ho : (t.entry i).owns a = true) :
    (t.find a).1.index < t.guardIndex := by
  obtain ⟨ys, j, zs, heq, -, -, hfound, -⟩ | ⟨hnone, -, -⟩ := t.find_cases a
  · rw [hfound]
    exact mem_recency.mp (by simp [heq])
  · exact absurd ho (by simp [hnone i (mem_recency.mpr hi)])

/-- A lookup returns the entry of the list at the depth that it counts, and no entry before that
one owns the address. -/
theorem find_first : t.order[(t.find a).1.depth]? = some (t.find a).1.index ∧
    ∀ j ∈ t.order.take (t.find a).1.depth, (t.entry j).owns a = false := by
  obtain ⟨ys, i, zs, heq, hys, _, hfound, _⟩ | ⟨hnone, hfound, _⟩ := t.find_cases a
  · simpa [hfound, order_eq, heq] using hys
  · simpa [hfound, order_eq] using hnone

theorem depth_find_le : (t.find a).1.depth ≤ t.guardIndex := by
  obtain ⟨hlt, -⟩ := List.getElem?_eq_some_iff.mp (find_first (t := t) (a := a)).1
  have hlength := t.order_perm.length_eq
  simp only [List.length_range, size_eq] at hlength
  omega

theorem promoted_find : (t.find a).1.promoted =
    decide ((t.find a).1.depth ≠ 0 ∧ (t.find a).1.index ≠ t.guardIndex) := by
  obtain ⟨ys, i, zs, heq, _, _, hfound, _⟩ | ⟨_, hfound, _⟩ := t.find_cases a
  · have hi : i < t.guardIndex := mem_recency.mp (by simp [heq])
    simp [hfound, Nat.ne_of_lt hi]
  · simp [hfound]

/-- A range that a lookup returns goes to the front; the others keep their order. -/
theorem recency_find_of_lt (h : (t.find a).1.index < t.guardIndex) :
    (t.find a).2.recency = (t.find a).1.index :: t.recency.filter (· ≠ (t.find a).1.index) := by
  obtain ⟨ys, i, zs, heq, _, _, hfound, hnew⟩ | ⟨_, hfound, _⟩ := t.find_cases a
  · have hn : (ys ++ i :: zs).Nodup := heq ▸ t.nodup_recency
    obtain ⟨-, hzs, hys⟩ := List.nodup_append.mp hn
    have hys' : ys.filter (· ≠ i) = ys :=
      List.filter_eq_self.mpr fun j hj => by simpa using hys j hj i (by simp)
    have hzs' : zs.filter (· ≠ i) = zs :=
      List.filter_eq_self.mpr fun j hj => by
        simpa using fun hji : j = i => (List.nodup_cons.mp hzs).1 (hji ▸ hj)
    rw [hnew, heq, hfound, List.filter_append, List.filter_cons_of_neg (by simp), hys', hzs']
  · simp [hfound] at h

theorem recency_find_of_guard (h : (t.find a).1.index = t.guardIndex) :
    (t.find a).2.recency = t.recency := by
  obtain ⟨ys, i, zs, heq, _, _, hfound, _⟩ | ⟨_, _, hsame⟩ := t.find_cases a
  · have hi : i < t.guardIndex := mem_recency.mp (by simp [heq])
    simp [hfound] at h
    omega
  · exact hsame

/-! New tables. -/

variable {rs : List Range} {guard : Range}

theorem arena_of_build (h : build rs guard = .ok t) :
    t.arena = .ofRanges rs guard ∧ t.stats = .zero := by
  unfold build at h
  split at h
  · cases h
  · split at h
    · cases h
    · split at h <;> cases h
      exact ⟨rfl, rfl⟩

theorem entries_of_build (h : build rs guard = .ok t) : t.entries = rs ++ [guard] := by
  simp [entries, (arena_of_build h).1]

theorem guardIndex_of_build (h : build rs guard = .ok t) : t.guardIndex = rs.length := by
  simp [guardIndex, (arena_of_build h).1]

theorem recency_of_build (h : build rs guard = .ok t) : t.recency = List.range rs.length := by
  rw [recency, (arena_of_build h).1, Arena.threaded_ofRanges.recency_eq]

/-- Ranges that say where they are kept make a table with every guard that the builder admits. -/
theorem exists_build_of_guard (hm : guard.mask = 0) (hv : guard.value = 0) (hc : guard.isCacheable = false)
    (h : ∀ r ∈ rs, r.isCacheable = true → r.backing ≠ none) : ∃ t, build rs guard = .ok t := by
  unfold build
  rw [dif_neg (by simp [hm, hv]), dif_neg (by simp [hc])]
  split
  · rename_i i hi
    obtain ⟨hlt, hr, -⟩ := List.findIdx?_eq_some_iff_getElem.mp hi
    have := h rs[i] (List.getElem_mem hlt)
    simp_all
  · exact ⟨_, rfl⟩

theorem exists_build (h : ∀ r ∈ rs, r.isCacheable = true → r.backing ≠ none) :
    ∃ t, build rs .guard = .ok t := exists_build_of_guard rfl rfl rfl h

end MemoryBus.Table
