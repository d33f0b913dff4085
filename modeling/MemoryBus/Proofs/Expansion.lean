import MemoryBus.Machine.Demo
import MemoryBus.Proofs.Layouts
import MemoryBus.Proofs.Progress

/-! The demonstration machine maps its window once at most, and the table in force is always the one that
its layout describes. -/
namespace MemoryBus

/-- The handler accepts a notification. -/
def Event.isAcceptance : Event → Bool
  | notified _ accepted => accepted
  | _ => false

/-- How many notifications have been accepted. -/
def MemoryMap.acceptances (m : MemoryMap) : Nat := m.journal.countP Event.isAcceptance

namespace MemoryMap

variable {m m' : MemoryMap}

theorem acceptances_note (e : Event) :
    (m.note e).acceptances = m.acceptances + if e.isAcceptance then 1 else 0 := by
  simp [acceptances, note, List.countP_cons]

theorem acceptances_find (a : UInt32) : (m.find a).2.acceptances = m.acceptances := by
  simp only [acceptances, find, List.countP_append, Lookup.event?]
  split <;> simp [Event.isAcceptance]

theorem acceptances_install {t : Table} (hi : m.install t = .ok m') : m'.acceptances = m.acceptances := by
  obtain ⟨-, rfl⟩ := install_ok hi
  simp [acceptances, Event.isAcceptance]

end MemoryMap

namespace Demo

variable {l : Layout} {s : Demo} {r : Range} {m m' : MemoryMap} {n : Nat} {b : Bus Demo}

/-- The layout with its expansion window mapped. -/
def mapped? (l : Layout) : Option Layout := l.expanded "expansion" "expansion" 0x0007FFFF

theorem remap_ok (h : remap l m = .ok m') : ∃ t, l.buildTable m.banks = .ok t ∧ m.install t = .ok m' := by
  unfold remap at h
  cases ht : l.buildTable m.banks with
  | error e => simp [ht, bind, Except.bind] at h
  | ok t =>
    simp only [ht, bind, Except.bind] at h
    exact ⟨t, rfl, Operation.mapError_ok h⟩

/-- A notification is declined, with a line in the journal or without, or it maps the window. -/
theorem notify_cases (s : Demo) (r : Range) (m : MemoryMap) :
    s.notify r m = ⟨false, s, m⟩ ∨
      (∃ text, s.notify r m = ⟨false, s, m.note (.remark .warn text)⟩) ∨
      ∃ layout t m', mapped? s.layout = some layout ∧ layout.buildTable m.banks = .ok t ∧
        m.install t = .ok m' ∧
        s.notify r m = ⟨true, { s with layout }, m'.note (.remark .info "Expansion window mapped")⟩ := by
  unfold notify
  split
  · exact .inl rfl
  · split
    · exact .inr (.inl ⟨_, rfl⟩)
    · rename_i layout hlayout
      split
      · rename_i m' hm'
        obtain ⟨t, hbuild, hi⟩ := remap_ok hm'
        exact .inr (.inr ⟨layout, t, m', hlayout, hbuild, hi, rfl⟩)
      · exact .inr (.inl ⟨_, rfl⟩)

theorem confined_handler : handler.Confined fun _ => True := by
  intro s r m
  change Changes _ m (s.notify r m).map
  rcases notify_cases s r m with hn | ⟨text, hn⟩ | ⟨layout, t, m', -, -, hi, hn⟩
  · rw [hn]
    exact .refl
  · rw [hn]
    exact .single (.note m _)
  · rw [hn]
    exact .tail (.single (.install trivial hi)) (.note m' _)

theorem device_layout (s : Demo) (r : Range) (q : Request) : (s.device r q).state.layout = s.layout := by
  unfold device
  split
  · cases q.direction <;> rfl
  · rfl

theorem device_remarks (s : Demo) (r : Range) (q : Request) :
    ∀ e ∈ (s.device r q).remarks, e.isAcceptance = false := by
  unfold device
  split
  · cases q.direction <;> simp
  · simp [Event.isAcceptance]

/-- One notification may be accepted, until the window is mapped. -/
def left (s : Demo) : Nat := if (mapped? s.layout).isSome then 1 else 0

theorem left_le (s : Demo) : s.left ≤ limit := by
  unfold left
  split <;> decide

theorem spends_handler : handler.Spends left where
  accepted {s r m} haccepted := by
    change (s.notify r m).accepted = true at haccepted
    change (s.notify r m).state.left < s.left
    rcases notify_cases s r m with hn | ⟨text, hn⟩ | ⟨layout, t, m', hmapped, -, -, hn⟩
    · simp [hn] at haccepted
    · simp [hn] at haccepted
    · have hnone : mapped? layout = none := Layout.expanded_expanded hmapped _ _
      simp [hn, left, hmapped, hnone]
  declined {s r m} hdeclined := by
    change (s.notify r m).accepted = false at hdeclined
    change (s.notify r m).state.left ≤ s.left
    rcases notify_cases s r m with hn | ⟨text, hn⟩ | ⟨layout, t, m', -, -, -, hn⟩
    · rw [hn]
    · rw [hn]
    · simp [hn] at hdeclined
  device s r q := by
    change (s.device r q).state.left ≤ s.left
    rw [left, device_layout, left]

/-- The entries in force are those of the machine's layout, which is `l` until a notification is accepted,
and then `l` with its window mapped. Before there were `n` acceptances. -/
structure InStep (l : Layout) (n : Nat) (b : Bus Demo) : Prop where
  table : ∃ t, b.state.layout.buildTable b.map.banks = .ok t ∧ b.map.table.entries = t.entries
  once : (b.state.layout = l ∧ b.map.acceptances = n) ∨
    (mapped? l = some b.state.layout ∧ b.map.acceptances = n + 1)

theorem InStep.of_same {b' : Bus Demo} (hb : InStep l n b) (hstate : b'.state.layout = b.state.layout)
    (hbanks : b'.map.banks.shape = b.map.banks.shape)
    (htable : b'.map.table.entries = b.map.table.entries)
    (hacceptances : b'.map.acceptances = b.map.acceptances) : InStep l n b' where
  table := by rw [hstate, Layout.buildTable_of_shape _ hbanks, htable]; exact hb.table
  once := by rw [hstate, hacceptances]; exact hb.once

theorem upholds_inStep : handler.Upholds (InStep l n) where
  find a hb := hb.of_same rfl rfl Table.entries_find (MemoryMap.acceptances_find a)
  fill {_ _ _ a _} hb _ _ := hb.of_same rfl rfl Table.entries_find (MemoryMap.acceptances_find a)
  banks hb hshape := hb.of_same rfl hshape rfl rfl
  device {b} r q hb := by
    have hremarks : (b.state.device r q).remarks.countP Event.isAcceptance = 0 :=
      List.countP_eq_zero.mpr fun e he => by simp [device_remarks b.state r q e he]
    rw [Bus.callDevice_eq]
    refine hb.of_same (device_layout b.state r q) rfl rfl ?_
    change List.countP Event.isAcceptance (_ :: ((b.state.device r q).remarks.reverse ++ _)) = _
    simp [hremarks, Event.isAcceptance, MemoryMap.acceptances, Bus.countDevice]
  accepted {b r b'} hb hn := by
    obtain rfl := Bus.eq_of_notify hn
    have haccepted : (b.state.notify r b.map).accepted = true := congrArg Prod.fst hn
    change InStep l n ⟨(b.state.notify r b.map).map.note _, (b.state.notify r b.map).state, _⟩
    rcases notify_cases b.state r b.map with heq | ⟨text, heq⟩ | ⟨layout, t, m', hmapped, hbuild, hi, heq⟩
    · simp [heq] at haccepted
    · simp [heq] at haccepted
    · rw [heq]
      have hacceptances : ((m'.note (.remark .info "Expansion window mapped")).note
          (.notified r true)).acceptances = b.map.acceptances + 1 := by
        simp [MemoryMap.acceptances_note, MemoryMap.acceptances_install hi, Event.isAcceptance]
      obtain ⟨-, hm'⟩ := MemoryMap.install_ok hi
      refine ⟨⟨t, hm' ▸ hbuild, hm' ▸ rfl⟩, .inr ?_⟩
      -- A second acceptance would map the window of a layout that has it mapped.
      rcases hb.once with ⟨rfl, hn⟩ | ⟨hl, -⟩
      · exact ⟨hmapped, hn ▸ hacceptances⟩
      · have hnone : mapped? b.state.layout = none := Layout.expanded_expanded hl _ _
        simp [hnone] at hmapped
  declined {b r b'} d a hb hn := by
    obtain rfl := Bus.eq_of_notify hn
    have hdeclined : (b.state.notify r b.map).accepted = false := congrArg Prod.fst hn
    change InStep l n ⟨((b.state.notify r b.map).map.note _).note _, (b.state.notify r b.map).state, _⟩
    rcases notify_cases b.state r b.map with heq | ⟨text, heq⟩ | ⟨layout, t, m', -, -, -, heq⟩
    · rw [heq]
      exact hb.of_same rfl rfl rfl (by simp [MemoryMap.acceptances_note, Event.isAcceptance])
    · rw [heq]
      exact hb.of_same rfl rfl rfl (by simp [MemoryMap.acceptances_note, Event.isAcceptance])
    · simp [heq] at hdeclined
  unmapped d a hb := hb.of_same rfl rfl rfl (MemoryMap.acceptances_note _)

end Demo
end MemoryBus
