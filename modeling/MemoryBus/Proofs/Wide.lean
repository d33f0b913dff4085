import MemoryBus.Proofs.Parts

/-! Longs are two words, and words at odd addresses two bytes, also where the slots know them and
where a handler changes the map between the halves. -/
namespace MemoryBus

/-- The maps that there can be: the operations lead to them, the accesses, and whoever holds the banks
and gives them other contents or sizes. -/
inductive MemoryMap.Reachable : MemoryMap → Prop
  | ofBanks (banks : Banks) : Reachable (.ofBanks banks)
  | change {m m' : MemoryMap} : Reachable m → Change (fun _ => True) m m' → Reachable m'
  | banks {m : MemoryMap} (banks : Banks) : Reachable m → Reachable { m with banks }
  | resetStats {m : MemoryMap} : Reachable m → Reachable m.resetStats
  /-- A range that a bank serves is looked up and remembered in a slot. -/
  | fill {m : MemoryMap} {d : Direction} {w : Width} {a : UInt32} {k : Backing} : Reachable m →
    (m.find a).1.range.served d = some k → (w = .word → a &&& 1 = 0) →
    Reachable { (m.find a).2 with slots := (m.find a).2.slots.remember d w (m.find a).1.range k }

/-- The handler may leave any map that there can be, also one that has nothing to do with the one that
it was given. -/
def Handler.Free {σ : Type} (h : Handler σ) : Prop :=
  ∀ s r m, m.Reachable → (h.notify s r m).map.Reachable

theorem Handler.Confined.free {σ : Type} {h : Handler σ} (hh : h.Confined fun _ => True) : h.Free :=
  fun s r m hm => (hh s r m).keep MemoryMap.Reachable.change hm

namespace MemoryMap

variable {m : MemoryMap}

theorem Reachable.filled (hm : m.Reachable) (d : Direction) (w : Width) :
    (m.slots.get d w).FilledFrom m.table d w := by
  induction hm generalizing d w with
  | ofBanks banks => exact (sound_ofBanks banks).filled d w
  | change _ hc ih =>
    rcases hc.cases with ⟨a, rfl⟩ | ⟨t, -, hi⟩ | ⟨ht, hs, -⟩
    · exact (ih d w).of_entries Table.entries_find.symm
    · exact (Sound.install hi).filled d w
    · rw [ht, hs]
      exact ih d w
  | banks banks _ ih => exact ih d w
  | resetStats _ ih => exact ih d w
  | fill _ hk ha ih => exact filled_remember ih hk ha

theorem Reachable.aligned (hm : m.Reachable) : m.Aligned :=
  aligned_of_filled fun d => hm.filled d .word

end MemoryMap

variable {σ : Type} {h : Handler σ} {limit : Nat} {b b' : Bus σ}

theorem carries_reachable (hh : h.Free) : h.Carries MemoryMap.Reachable where
  find a hm := hm.change (.find _ a)
  fill hm hk ha := hm.fill hk ha
  banks hm _ := hm.banks _
  note e hm := hm.change (.note _ e)
  notify s r hm := hh s r _ hm

namespace Operation

theorem reachable_perform (hh : h.Free) {op : Operation} {answer : Reply} (hb : b.map.Reachable)
    (hop : op.perform (Bus.port h limit) b = .ok (answer, b')) : b'.map.Reachable :=
  carries_perform (carries_reachable hh) MemoryMap.Reachable.aligned MemoryMap.Reachable.change
    (.resetStats ·) (fun _ => trivial) (fun _ _ => trivial) hb hop

theorem reachable_run (hh : h.Free) {ops : List Operation} {answers : List Reply} (hb : b.map.Reachable)
    (hrun : run (Bus.port h limit) b ops = .ok (answers, b')) : b'.map.Reachable :=
  keeps_run (J := fun b => b.map.Reachable) (fun _ _ _ _ _ hb hop => reachable_perform hh hb hop) hb hrun

/-- In every state that a run leads to, a wide access answers what its narrow parts answer, and leaves
the banks, the list, the slots, the handler and every counter as they leave them. -/
theorem wide_accesses (hh : h.Free) {m : MemoryMap} (hm : m.Reachable) (s : σ) {ops : List Operation}
    {answers : List Reply} (hrun : run (Bus.port h limit) (Bus.attach h m s) ops = .ok (answers, b))
    (a : UInt32) :
    b.readLong h limit a = (do
        let (high, b) ← b.readWord h limit a
        let (low, b) ← b.readWord h limit (a + 2)
        return (BigEndian.long high low, b)) ∧
      (∀ v : UInt32, b.writeLong h limit a v = (do
        let b ← b.writeWord h limit a (v >>> 16).toUInt16
        b.writeWord h limit (a + 2) v.toUInt16)) ∧
      (a &&& 1 ≠ 0 →
        b.readWord h limit a = (do
          let (high, b) ← b.readByte h limit a
          let (low, b) ← b.readByte h limit (a + 1)
          return (BigEndian.word high low, b)) ∧
        ∀ v : UInt16, b.writeWord h limit a v = (do
          let b ← b.writeByte h limit a (v >>> 8).toUInt8
          b.writeByte h limit (a + 1) v.toUInt8)) := by
  have hstart : (Bus.attach h m s).map.Reachable := hm.change (.note _ _)
  have haligned : b.map.Aligned := (reachable_run hh hstart hrun).aligned
  refine ⟨Bus.readLong_eq b a, Bus.writeLong_eq b a, fun ha => ⟨?_, ?_⟩⟩
  · exact Bus.readWord_odd haligned ha
  · exact Bus.writeWord_odd haligned ha

/-- A long at an odd address, whose first byte has a window installed under it. -/
theorem wide_accesses_window : ∃ (h : Handler Unit) (m : MemoryMap) (ops : List Operation)
    (answers : List Reply) (b : Bus Unit), h.Free ∧ m.Reachable ∧
      run (Bus.port h 1) (Bus.attach h m ()) ops = .ok (answers, b) ∧
      (b.readLong h 1 0x0101).map (·.1) = .ok 0x09070907 ∧
      b.readLong h 1 0x0101 = (do
        let (high, b) ← b.readWord h 1 0x0101
        let (low, b) ← b.readWord h 1 (0x0101 + 2)
        return (BigEndian.long high low, b)) ∧
      b.readWord h 1 0x0101 = (do
        let (high, b) ← b.readByte h 1 0x0101
        let (low, b) ← b.readByte h 1 (0x0101 + 1)
        return (BigEndian.word high low, b)) := by
  obtain ⟨h, m, ops, answers, b, hh, hm, hrun, hlong⟩ : ∃ (h : Handler Unit) (m : MemoryMap)
      (ops : List Operation) (answers : List Reply) (b : Bus Unit), h.Free ∧ m.Reachable ∧
        run (Bus.port h 1) (Bus.attach h m ()) ops = .ok (answers, b) ∧
        (b.readLong h 1 0x0101).map (·.1) = .ok 0x09070907 := by
    refine ⟨.installing ⟨.ofRanges [⟨0xFF00, 0x0100, .read, some ⟨0, 0, 1⟩, 0⟩] .guard, .zero,
        Arena.valid_ofRanges rfl rfl rfl (by decide)⟩, .ofBanks ⟨#[⟨"ram", ⟨#[7, 9]⟩⟩]⟩,
      [.install ⟨.ofRanges [.ofAccess 0 0 .notify] .guard, .zero,
        Arena.valid_ofRanges rfl rfl rfl (by decide)⟩], _, _,
      (Handler.confined_installing trivial).free, .ofBanks _, rfl, rfl⟩
  obtain ⟨hlong', -, hodd⟩ := wide_accesses hh hm () hrun 0x0101
  exact ⟨h, m, ops, answers, b, hh, hm, hrun, hlong, hlong', (hodd (by decide)).1⟩

end Operation
end MemoryBus
