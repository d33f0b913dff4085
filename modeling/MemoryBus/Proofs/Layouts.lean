import MemoryBus.Layout.Build
import MemoryBus.Proofs.Bounds

/-! The banks and tables that layouts describe, and layouts with a window mapped. -/
namespace MemoryBus.Layout

variable {l l' : Layout} {s s' : Banks} {range bank : String} {useMask : UInt32} {t : Table}

@[simp] theorem size_zeros (n : Nat) : (zeros n).size = n := by simp [zeros, ByteArray.size]

theorem toList_of_allocate {before ks : List BankLayout} {acc : Banks}
    (h : allocate before acc ks = (s, none)) :
    s.toArray.toList = acc.toArray.toList ++ ks.map fun k => ⟨k.name, zeros k.size⟩ := by
  induction ks generalizing before acc with
  | nil =>
    obtain ⟨rfl, -⟩ := Prod.mk.inj h
    simp
  | cons k ks ih =>
    simp only [allocate] at h
    split at h
    · cases h
    · simp [ih h, Banks.add]

/-- The banks are those of the layout, with zeros in them. -/
theorem toList_of_buildBanks (h : l.buildBanks = .ok s) :
    s.toArray.toList = l.banks.map fun k => ⟨k.name, zeros k.size⟩ := by
  unfold buildBanks at h
  split at h
  · rename_i heq
    obtain rfl := Except.ok.inj h
    simpa [Banks.empty] using toList_of_allocate heq
  · cases h

/-- The banks have the names and sizes that the layout gives them. -/
theorem shape_of_buildBanks (h : l.buildBanks = .ok s) :
    s.shape = l.banks.map fun k => (k.name, k.size) := by
  simp [Banks.shape, toList_of_buildBanks h]

/-- A window that is mapped is not one to map. -/
theorem expanded_expanded (h : l.expanded range bank useMask = some l') (bank' : String)
    (useMask' : UInt32) : l'.expanded range bank' useMask' = none := by
  unfold expanded at h
  split at h
  · obtain rfl := Option.some.inj h
    refine if_neg (Bool.not_eq_true _ ▸ List.any_eq_false.mpr ?_)
    intro r hr
    obtain ⟨r', -, rfl⟩ := List.mem_map.mp hr
    by_cases hr' : isUnmapped range r' = true
    · rw [if_pos hr']
      simp [isUnmapped]
    · rwa [if_neg hr']
  · cases h

/-- A table depends on where the names of the banks are found. -/
theorem buildTable_of_shape (l : Layout) (h : s.shape = s'.shape) : l.buildTable s = l.buildTable s' := by
  have hrange : buildRange s = buildRange s' := funext fun r => by simp [buildRange, Banks.find?_eq, h]
  rw [buildTable, hrange, buildTable]

theorem entries_of_buildTable (h : l.buildTable s = .ok t) : ∃ rs, t.entries = rs ++ [.guard] := by
  unfold buildTable at h
  cases hranges : (l.ranges.mapM (buildRange s)).mapError MemoryError.layout with
  | error e => simp [hranges, bind, Except.bind] at h
  | ok rs =>
    simp only [hranges, bind, Except.bind] at h
    exact ⟨rs, Table.entries_of_build (Operation.mapError_ok h)⟩

theorem exists_install {m : MemoryMap} {rs : List Range} (hrs : l.ranges.mapM (buildRange m.banks) = .ok rs)
    (hfits : ∀ r ∈ rs, r.Fits m.banks.sizes) :
    ∃ t m', l.buildTable m.banks = .ok t ∧ m.install t = .ok m' := by
  obtain ⟨t, ht⟩ := Table.exists_build fun r hr hc => by
    obtain ⟨k, -, hk, -⟩ := hfits r hr hc
    simp [hk]
  have hcheck : t.check m.banks.sizes = .ok () := Table.check_ok_iff.mpr fun r hr => by
    rw [Table.entries_of_build ht] at hr
    rcases List.mem_append.mp hr with hr | hr
    · exact hfits r hr
    · obtain rfl := List.mem_singleton.mp hr
      exact fun hc => absurd hc (by decide)
  obtain ⟨m', hm'⟩ := MemoryMap.exists_install hcheck
  exact ⟨t, m', by simp [buildTable, hrs, ht, Except.mapError, bind, Except.bind], hm'⟩

end MemoryBus.Layout
