import MemoryBus.Proofs.Changes

/-! Slots are filled from ranges of the installed table, and so stay inside the banks. -/
namespace MemoryBus

theorem and_or_one (a m : UInt32) : a &&& (m ||| 1) = a &&& m ||| a &&& 1 :=
  UInt32.toBitVec_inj.1 BitVec.and_or_distrib_left

theorem or_and_distrib (a b m : UInt32) : (a ||| b) &&& m = a &&& m ||| b &&& m :=
  UInt32.toBitVec_inj.1 BitVec.and_or_distrib_right

theorem or_one_and_one (m : UInt32) : (m ||| 1) &&& 1 = 1 := by
  apply UInt32.toBitVec_inj.1
  ext i hi
  simp only [UInt32.toBitVec_and, UInt32.toBitVec_or, BitVec.getElem_and, BitVec.getElem_or]
  cases m.toBitVec[i] <;> simp

namespace Slot

theorem translate_empty (a : UInt32) : Slot.empty.translate a = none := by
  simp [translate, empty]

theorem translate_of_owns {r : Range} {k : Backing} {a : UInt32} (h : r.owns a = true) :
    (ofRange r k).translate a = some (k.bank, k.offset a) := if_pos h

theorem translate_ofRange {r : Range} {k : Backing} {a : UInt32} {p : Nat × Nat}
    (h : (ofRange r k).translate a = some p) : r.owns a = true ∧ p = (k.bank, k.offset a) := by
  unfold translate at h
  split at h
  · rename_i hv
    exact ⟨hv, (Option.some.inj h).symm⟩
  · cases h

/-- With bit 0 compared too, a range whose value clears it is known at even addresses only. -/
theorem translate_ofRangeEven {r : Range} {k : Backing} {a : UInt32} {p : Nat × Nat}
    (hr : r.value &&& 1 = 0) (h : (ofRangeEven r k).translate a = some p) :
    r.owns a = true ∧ a &&& 1 = 0 ∧ p = (k.bank, k.offset a) := by
  unfold translate at h
  split at h
  · rename_i hv
    have hv : a &&& (r.mask ||| 1) = r.value := by simpa [ofRangeEven] using hv
    have ha : a &&& 1 = 0 := by rw [← hr, ← hv, UInt32.and_assoc, or_one_and_one]
    refine ⟨?_, ha, (Option.some.inj h).symm⟩
    rw [and_or_one, ha, UInt32.or_zero] at hv
    simpa [Range.owns] using hv
  · cases h

/-- The slot for accesses of kind `d`, `w` was filled from entry `i` of `t`. -/
def FilledBy (s : Slot) (t : Table) (d : Direction) (w : Width) (i : Nat) : Prop :=
  ∃ k, (t.entry i).served d = some k ∧
    match w with
    | .byte => s = .ofRange (t.entry i) k
    | .word => (t.entry i).value &&& 1 = 0 ∧ s = .ofRangeEven (t.entry i) k

def FilledFrom (s : Slot) (t : Table) (d : Direction) (w : Width) : Prop :=
  s = .empty ∨ ∃ i, s.FilledBy t d w i

theorem FilledBy.translate {s : Slot} {t : Table} {d : Direction} {w : Width} {i : Nat} {a : UInt32}
    {p : Nat × Nat} (hs : s.FilledBy t d w i) (h : s.translate a = some p) :
    ∃ k, (t.entry i).served d = some k ∧ (t.entry i).owns a = true ∧
      (w = .word → a &&& 1 = 0) ∧ p = (k.bank, k.offset a) := by
  obtain ⟨k, hk, hs⟩ := hs
  cases w with
  | byte =>
    obtain ⟨ho, hp⟩ := translate_ofRange (hs ▸ h)
    exact ⟨k, hk, ho, by simp, hp⟩
  | word =>
    obtain ⟨ho, ha, hp⟩ := translate_ofRangeEven hs.1 (hs.2 ▸ h)
    exact ⟨k, hk, ho, fun _ => ha, hp⟩

theorem FilledBy.of_entries {s : Slot} {t u : Table} {d : Direction} {w : Width} {i : Nat}
    (hs : s.FilledBy t d w i) (h : t.entries = u.entries) : s.FilledBy u d w i := by
  unfold FilledBy
  rw [← Table.entry_of_entries h]
  exact hs

theorem FilledFrom.of_entries {s : Slot} {t u : Table} {d : Direction} {w : Width}
    (hs : s.FilledFrom t d w) (h : t.entries = u.entries) : s.FilledFrom u d w :=
  hs.imp_right fun ⟨i, hi⟩ => ⟨i, hi.of_entries h⟩

theorem FilledFrom.translate {s : Slot} {t : Table} {d : Direction} {w : Width} {a : UInt32}
    {p : Nat × Nat} (hs : s.FilledFrom t d w) (h : s.translate a = some p) :
    ∃ i, s.FilledBy t d w i ∧ ∃ k, (t.entry i).served d = some k ∧ (t.entry i).owns a = true ∧
      (w = .word → a &&& 1 = 0) ∧ p = (k.bank, k.offset a) := by
  obtain rfl | ⟨i, hs⟩ := hs
  · rw [translate_empty] at h
    cases h
  · exact ⟨i, hs, hs.translate h⟩

end Slot

theorem Range.value_even {r : Range} {a : UInt32} (ho : r.owns a = true) (ha : a &&& 1 = 0) :
    r.value &&& 1 = 0 := by
  have hv : a &&& r.mask = r.value := by simpa [owns] using ho
  rw [← hv, UInt32.and_assoc, UInt32.and_comm r.mask, ← UInt32.and_assoc, ha, UInt32.zero_and]

namespace Slots

@[simp] theorem get_empty (d : Direction) (w : Width) : Slots.empty.get d w = .empty := by
  cases d <;> cases w <;> rfl

theorem get_remember (s : Slots) (d d' : Direction) (w w' : Width) (r : Range) (k : Backing) :
    (s.remember d w r k).get d' w' =
      if d' = d ∧ w' = w then (match w with | .byte => .ofRange r k | .word => .ofRangeEven r k)
      else s.get d' w' := by
  cases d <;> cases d' <;> cases w <;> cases w' <;> rfl

end Slots

/-- The installed table stays inside the banks, and every slot was filled from it. -/
structure MemoryMap.Sound (m : MemoryMap) : Prop where
  fits : ∀ r ∈ m.table.entries, r.Fits m.banks.sizes
  filled : ∀ d w, (m.slots.get d w).FilledFrom m.table d w

namespace MemoryMap

variable {m m' : MemoryMap} {P : Table → Prop} {a : UInt32}

/-- An access that a range of the table serves stays inside its bank. -/
theorem Sound.reaches (h : m.Sound) {i : Nat} {d : Direction} {k : Backing} {w : Width} {a : UInt32}
    (hk : (m.table.entry i).served d = some k) (ha : w = .word → a &&& 1 = 0) :
    m.banks.Reaches w k.bank (k.offset a) := by
  obtain ⟨size, hsize, hlast⟩ := (h.fits _ (Table.mem_entries_of_served hk)).served hk
  refine ⟨size, hsize, ?_⟩
  cases w with
  | byte =>
    have := k.offset_le_last a
    simp only [Width.bytes]
    omega
  | word =>
    have := Backing.offset_lt_last (k := k) (ha rfl)
    simp only [Width.bytes]
    omega

theorem entry_of_find (m : MemoryMap) (a : UInt32) :
    (m.find a).2.table.entry (m.find a).1.index = (m.find a).1.range :=
  Table.entry_find.trans Table.range_of_find.symm

theorem Sound.reaches_find (h : (m.find a).2.Sound) {d : Direction} {k : Backing} {w : Width}
    (hk : (m.find a).1.range.served d = some k) (ha : w = .word → a &&& 1 = 0) :
    (m.find a).2.banks.Reaches w k.bank (k.offset a) :=
  h.reaches (entry_of_find m a ▸ hk) ha

/-- After a lookup the slot holds the range that was found. -/
theorem filledBy_remember {d : Direction} {w : Width} {k : Backing}
    (hk : (m.find a).1.range.served d = some k) (ha : w = .word → a &&& 1 = 0) :
    (((m.find a).2.slots.remember d w (m.find a).1.range k).get d w).FilledBy (m.find a).2.table d w
      (m.find a).1.index := by
  have he := entry_of_find m a
  rw [Slots.get_remember, if_pos ⟨rfl, rfl⟩]
  refine ⟨k, he ▸ hk, ?_⟩
  cases w with
  | byte => exact congrArg (Slot.ofRange · k) he.symm
  | word =>
    have ho : (m.find a).1.range.owns a = true := Table.range_owns_of_find
    exact ⟨he.symm ▸ Range.value_even ho (ha rfl), congrArg (Slot.ofRangeEven · k) he.symm⟩

/-- So every slot stays filled from the table. -/
theorem filled_remember (hm : ∀ d w, (m.slots.get d w).FilledFrom m.table d w) {d d' : Direction}
    {w w' : Width} {k : Backing} (hk : (m.find a).1.range.served d = some k)
    (ha : w = .word → a &&& 1 = 0) :
    (((m.find a).2.slots.remember d w (m.find a).1.range k).get d' w').FilledFrom (m.find a).2.table
      d' w' := by
  by_cases hsame : d' = d ∧ w' = w
  · obtain ⟨rfl, rfl⟩ := hsame
    exact .inr ⟨_, filledBy_remember hk ha⟩
  · rw [Slots.get_remember, if_neg hsame]
    exact (hm d' w').of_entries Table.entries_find.symm

/-- What a slot translates stays inside the bank. -/
theorem Sound.reaches_slot (h : m.Sound) {d : Direction} {w : Width} {a : UInt32} {bank offset : Nat}
    (ht : (m.slots.get d w).translate a = some (bank, offset)) : m.banks.Reaches w bank offset := by
  obtain ⟨i, -, k, hk, -, ha, hp⟩ := (h.filled d w).translate ht
  obtain ⟨rfl, rfl⟩ := Prod.mk.inj hp
  exact h.reaches hk ha

theorem sound_ofBanks (banks : Banks) : (ofBanks banks).Sound where
  fits r hr := by
    obtain rfl : r = .guard := by simpa [ofBanks, Table.guardOnly, Table.entries] using hr
    exact fun hc => absurd hc (by decide)
  filled d w := .inl (by simp [ofBanks])

theorem Sound.of_same (h : m.Sound) (ht : m'.table.entries = m.table.entries)
    (hs : m'.slots = m.slots) (hb : m.banks.sizes <+: m'.banks.sizes) : m'.Sound where
  fits r hr := (h.fits r (ht ▸ hr)).mono hb
  filled d w := by
    rw [hs]
    exact (h.filled d w).of_entries ht.symm

theorem Sound.find (h : m.Sound) (a : UInt32) : (m.find a).2.Sound :=
  h.of_same Table.entries_find rfl List.prefix_rfl

theorem Sound.install {t : Table} (h : m.install t = .ok m') : m'.Sound := by
  obtain ⟨hc, rfl⟩ := install_ok h
  exact ⟨Table.check_ok_iff.mp hc, fun d w => .inl (by simp)⟩

/-- Every operation keeps the table inside the banks, whatever table it installs. -/
theorem Sound.change (h : m.Sound) (hc : Change P m m') : m'.Sound := by
  rcases hc.cases with ⟨a, rfl⟩ | ⟨t, -, hi⟩ | ⟨ht, hs, hb⟩
  · exact h.find a
  · exact .install hi
  · exact h.of_same (congrArg Table.entries ht) hs hb

end MemoryMap
end MemoryBus
