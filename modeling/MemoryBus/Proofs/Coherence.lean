import MemoryBus.Proofs.Ahead
import MemoryBus.Proofs.Disjoint
import MemoryBus.Proofs.Recency

/-! When the slots agree with the list, although lookups reorder it behind their back. -/
namespace MemoryBus

/-- A range that a lookup can put in front of another serves what the two share from the same bytes. -/
def Table.Coherent (t : Table) : Prop :=
  ∀ i j, t.Live i → t.Live j → (∃ e, (t.entry j).owns e = true ∧ (t.entry i).owns e = false) →
    ∀ d a k, (t.entry i).served d = some k → (t.entry i).owns a = true → (t.entry j).owns a = true →
      ∃ k', (t.entry j).served d = some k' ∧ k'.bank = k.bank ∧ k'.offset a = k.offset a

/-- Ranges that share nothing have nothing to agree on. -/
theorem Table.Disjoint.coherent {t : Table} (ht : t.Disjoint) : t.Coherent := by
  intro i j hi hj ⟨e, hje, hie⟩ d a k _ hoi hoj
  obtain rfl := ht i j a hi.1 hj.1 hoi hoj
  simp [hje] at hie

/-- Ranges that are served from the same place agree wherever they meet. -/
theorem Table.coherent_of_served {t : Table} (ht : ∀ d, ∀ i < t.guardIndex,
    ∀ j < t.guardIndex, (t.entry i).served d = (t.entry j).served d) : t.Coherent := by
  intro i j hi hj _ d a k hk _ _
  exact ⟨k, (ht d i hi.1 j hj.1).symm.trans hk, rfl, rfl⟩

namespace MemoryMap

/-- What a slot translates, a lookup finds in the same place. -/
def Consistent (m : MemoryMap) : Prop :=
  ∀ d w a bank offset, (w = .word → a &&& 1 = 0) →
    (m.slots.get d w).translate a = some (bank, offset) →
      ∃ k, (m.find a).1.range.served d = some k ∧ k.bank = bank ∧ k.offset a = offset

/-- The installed table is `t` after lookups, and the slots were filled from it on the way. -/
structure Tracks (m : MemoryMap) (t : Table) : Prop where
  entries : m.table.entries = t.entries
  /-- A range that no lookup finds stays behind. -/
  stays : ∀ {i j}, t.Ahead j i → t.Live i ∨ m.table.Ahead j i
  /-- What is ahead of the range in a slot was put there by a lookup. -/
  filled : ∀ d w, m.slots.get d w = .empty ∨ ∃ i, (m.slots.get d w).FilledBy m.table d w i ∧ t.Live i ∧
    ∀ j, m.table.Ahead j i → t.Live j ∧ ∃ e, (t.entry j).owns e = true ∧ (t.entry i).owns e = false

variable {m m' : MemoryMap} {t : Table} {a : UInt32}

theorem tracks_of_empty (hs : m.slots = .empty) : m.Tracks m.table where
  entries := rfl
  stays := .inr
  filled d w := .inl (by simp [hs])

theorem Tracks.of_same (h : m.Tracks t) (ht : m'.table = m.table) (hs : m'.slots = m.slots) :
    m'.Tracks t where
  entries := ht ▸ h.entries
  stays := ht ▸ h.stays
  filled := by
    rw [ht, hs]
    exact h.filled

theorem Tracks.entry_eq (h : m.Tracks t) (i : Nat) : m.table.entry i = t.entry i :=
  congrFun (Table.entry_of_entries h.entries) i

theorem Tracks.guardIndex_eq (h : m.Tracks t) : m.table.guardIndex = t.guardIndex :=
  Table.guardIndex_of_entries h.entries

/-- A range that no lookup of `t` finds is not found now either: all that was ahead of it still is. -/
theorem Tracks.live_find (h : m.Tracks t) (hlt : (m.table.find a).1.index < m.table.guardIndex) :
    t.Live (m.table.find a).1.index := by
  by_cases hl : t.Live (m.table.find a).1.index
  · exact hl
  · have hlt' : (m.table.find a).1.index < t.guardIndex := h.guardIndex_eq ▸ hlt
    refine ⟨hlt', a, Table.index_find_of_ahead hlt' ?_ fun j hj => ?_⟩
    · rw [← h.entry_eq]
      exact Table.owns_of_find
    · rw [← h.entry_eq]
      exact Table.not_owns_of_ahead ((h.stays hj).resolve_left hl)

theorem Tracks.find (h : m.Tracks t) (a : UInt32) : (m.find a).2.Tracks t where
  entries := Table.entries_find.trans h.entries
  stays {i j} hj := by
    rcases h.stays hj with hl | hahead
    · exact .inl hl
    · by_cases hi : i = (m.table.find a).1.index
      · exact .inl (hi ▸ h.live_find (hi ▸ hahead.lt.2))
      · exact .inr (hahead.find hi)
  filled d w := by
    rcases h.filled d w with he | ⟨i, hi, hl, hover⟩
    · exact .inl he
    · refine .inr ⟨i, hi.of_entries Table.entries_find.symm, hl, fun j hj => ?_⟩
      rcases Table.ahead_find hj with hahead | ⟨rfl, ho, hno⟩
      · exact hover j hahead
      · have hlt : (m.table.find a).1.index < (m.table.find a).2.guardIndex := hj.lt.1
        rw [Table.guardIndex_find] at hlt
        rw [h.entry_eq] at ho hno
        exact ⟨h.live_find hlt, a, ho, hno⟩

theorem Tracks.fill (h : m.Tracks t) {d : Direction} {w : Width} {k : Backing}
    (hk : (m.find a).1.range.served d = some k) (ha : w = .word → a &&& 1 = 0) :
    MemoryMap.Tracks
      { (m.find a).2 with slots := (m.find a).2.slots.remember d w (m.find a).1.range k } t where
  entries := (h.find a).entries
  stays := (h.find a).stays
  filled d' w' := by
    by_cases hsame : d' = d ∧ w' = w
    · obtain ⟨rfl, rfl⟩ := hsame
      have hlt : (m.table.find a).1.index < m.table.guardIndex := by
        apply Table.lt_guardIndex_of_served
        rw [← Table.range_of_find]
        exact hk
      refine .inr ⟨_, filledBy_remember hk ha, h.live_find hlt, fun j hj => ?_⟩
      exact absurd hj (Table.not_ahead_find hlt)
    · rw [Slots.get_remember, if_neg hsame]
      exact (h.find a).filled d' w'

/-- A map whose table was coherent when it was installed, after accesses. -/
def Coherent (m : MemoryMap) : Prop := m.Sound ∧ ∃ t, t.Coherent ∧ m.Tracks t

theorem Coherent.of_same (h : m.Coherent) (ht : m'.table = m.table) (hs : m'.slots = m.slots)
    (hb : m.banks.sizes <+: m'.banks.sizes) : m'.Coherent := by
  obtain ⟨hsound, t, hc, htracks⟩ := h
  exact ⟨hsound.of_same (congrArg Table.entries ht) hs hb, t, hc, htracks.of_same ht hs⟩

theorem Coherent.find (h : m.Coherent) (a : UInt32) : (m.find a).2.Coherent := by
  obtain ⟨hsound, t, hc, htracks⟩ := h
  exact ⟨hsound.find a, t, hc, htracks.find a⟩

theorem coherent_of_install (ht : t.Coherent) (h : m.install t = .ok m') : m'.Coherent := by
  refine ⟨.install h, t, ht, ?_⟩
  obtain ⟨-, rfl⟩ := install_ok h
  exact tracks_of_empty rfl

theorem Coherent.change (h : m.Coherent) (hc : Change Table.Coherent m m') : m'.Coherent := by
  rcases hc.cases with ⟨a, rfl⟩ | ⟨t, ht, hi⟩ | ⟨ht, hs, hb⟩
  · exact h.find a
  · exact coherent_of_install ht hi
  · exact h.of_same ht hs hb

/-- The range in a slot is either found first or overtaken by a range that agrees with it. -/
theorem Coherent.consistent (h : m.Coherent) : m.Consistent := by
  obtain ⟨-, t, hc, htracks⟩ := h
  intro d w a bank offset _ ht
  rcases htracks.filled d w with he | ⟨i, hi, hl, hover⟩
  · rw [he, Slot.translate_empty] at ht
    cases ht
  · obtain ⟨k, hk, ho, -, hp⟩ := hi.translate ht
    obtain ⟨rfl, rfl⟩ := Prod.mk.inj hp
    have hr : (m.find a).1.range = m.table.entry (m.table.find a).1.index := Table.range_of_find
    have hlt := Table.lt_guardIndex_of_served hk
    rw [hr]
    by_cases hne : (m.table.find a).1.index = i
    · exact ⟨k, hne ▸ hk, rfl, rfl⟩
    · rcases Table.ahead_or_ahead (Table.index_find_lt hlt ho) hlt hne with hahead | hahead
      · obtain ⟨hlj, he⟩ := hover _ hahead
        rw [htracks.entry_eq] at hk ho ⊢
        refine hc i _ hl hlj he d a k hk ho ?_
        rw [← htracks.entry_eq]
        exact Table.owns_of_find
      · exact absurd ho (by simp [Table.not_owns_of_ahead hahead])

end MemoryMap

theorem MemoryMap.lasting_coherent : Lasting Coherent where
  find a hm := hm.find a
  fill hm hk ha := by
    obtain ⟨hsound, t, hc, htracks⟩ := hm
    exact ⟨hsound.fill hk ha, t, hc, htracks.fill hk ha⟩
  banks hm hb := hm.of_same rfl rfl (hb ▸ List.prefix_rfl)
  note _ hm := hm.of_same rfl rfl List.prefix_rfl

end MemoryBus
