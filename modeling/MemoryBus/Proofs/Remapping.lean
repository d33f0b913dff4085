import MemoryBus.Proofs.Accesses

/-! What a handler does to the slots: nothing, unless it installs a table. -/
namespace MemoryBus

variable {σ : Type} {P Q : Table → Prop} {m m' m'' : MemoryMap}

/-- Operations lead from one map to the other, and one of them installs a table. -/
def Remaps (m m' : MemoryMap) : Prop :=
  ∃ m₁ t m₂, Changes (fun _ => True) m m₁ ∧ m₁.install t = .ok m₂ ∧ Changes (fun _ => True) m₂ m'

theorem Change.mono (hPQ : ∀ t, P t → Q t) (hc : Change P m m') : Change Q m m' := by
  cases hc with
  | find a => exact .find m a
  | install ht hi => exact .install (hPQ _ ht) hi
  | addBank name bytes => exact .addBank m name bytes
  | overwriteBank i offset bytes => exact .overwriteBank m i offset bytes
  | restore hr => exact .restore hr
  | loadImage i path file => exact .loadImage m i path file
  | note e => exact .note m e

theorem Changes.mono (hPQ : ∀ t, P t → Q t) (hc : Changes P m m') : Changes Q m m' :=
  Relation.ReflTransGen.mono (fun _ _ hstep => Change.mono hPQ hstep) _ _ hc

/-- Operations install a table or they do not. -/
theorem Changes.still_or_remaps (hc : Changes P m m') : Changes (fun _ => False) m m' ∨ Remaps m m' := by
  induction hc with
  | refl => exact .inl .refl
  | @tail m₁ m' hbefore hstep ih =>
    have hstep' : Change (fun _ => True) m₁ m' := hstep.mono fun _ _ => trivial
    rcases ih with hstill | ⟨m₂, t, m₃, hto, hi, hfrom⟩
    · cases hstep with
      | install ht hi =>
        exact .inr ⟨m₁, _, m', Changes.mono (fun _ _ => trivial) hbefore, hi, .refl⟩
      | find a => exact .inl (hstill.tail (.find _ a))
      | addBank name bytes => exact .inl (hstill.tail (.addBank _ name bytes))
      | overwriteBank i offset bytes => exact .inl (hstill.tail (.overwriteBank _ i offset bytes))
      | restore hr => exact .inl (hstill.tail (.restore hr))
      | loadImage i path file => exact .inl (hstill.tail (.loadImage _ i path file))
      | note e => exact .inl (hstill.tail (.note _ e))
    · exact .inr ⟨m₂, t, m₃, hto, hi, hfrom.tail hstep'⟩

namespace Handler

/-- The handler changes the map by operations only, and `installs` tells when it installs a table. -/
def Declares (h : Handler σ) (installs : σ → Range → MemoryMap → Bool) : Prop :=
  ∀ s r m, if installs s r m then Remaps m (h.notify s r m).map
    else Changes (fun _ => False) m (h.notify s r m).map

variable {h : Handler σ} {installs : σ → Range → MemoryMap → Bool}

theorem Declares.confined (hh : h.Declares installs) : h.Confined fun _ => True := by
  intro s r m
  have hm := hh s r m
  split at hm
  · obtain ⟨m₁, t, m₂, hto, hi, hfrom⟩ := hm
    exact (hto.tail (.install trivial hi)).trans hfrom
  · exact hm.mono fun _ _ => trivial

/-- Whatever handler performs operations, there is a function that tells when it installs a table. -/
theorem Confined.exists_declares (hh : h.Confined P) : ∃ installs, h.Declares installs := by
  classical
  refine ⟨fun s r m => decide (Remaps m (h.notify s r m).map), fun s r m => ?_⟩
  by_cases hr : Remaps m (h.notify s r m).map
  · simp [hr]
  · simpa [hr] using (hh s r m).still_or_remaps.resolve_right hr

theorem declares_installing (t : Table) :
    (installing t).Declares fun _ _ m => (m.install t).toBool := by
  intro s r m
  cases hi : m.install t with
  | ok m' =>
    simp only [installing, hi, Except.toBool, if_true]
    exact ⟨m, t, m', .refl, hi, .refl⟩
  | error e =>
    simp only [installing, hi, Except.toBool]
    exact .refl

end Handler

/-- With no table installed the entries and the slots stay, and with any the slots are empty. -/
def MemoryMap.Remapped (n : Nat) (m m' : MemoryMap) : Prop :=
  if n = 0 then m'.table.entries = m.table.entries ∧ m'.slots = m.slots else m'.slots = .empty

namespace MemoryMap

theorem Remapped.of_same (ht : m'.table.entries = m.table.entries) (hs : m'.slots = m.slots) :
    Remapped 0 m m' := ⟨ht, hs⟩

theorem Remapped.slots {n : Nat} (hm : Remapped n m m') :
    m'.slots = if n = 0 then m.slots else .empty := by
  unfold Remapped at hm
  split at hm
  · rw [if_pos ‹_›, hm.2]
  · rw [if_neg ‹_›, hm]

theorem Remapped.trans {n n' : Nat} (hm : Remapped n m m') (hm' : Remapped n' m' m'') :
    Remapped (n + n') m m'' := by
  have hslots := hm.slots
  have hslots' := hm'.slots
  rcases Nat.eq_zero_or_pos n' with rfl | hn'
  · rcases Nat.eq_zero_or_pos n with rfl | hn
    · exact ⟨hm'.1.trans hm.1, hm'.2.trans hm.2⟩
    · have hne : n ≠ 0 := Nat.ne_of_gt hn
      simp only [if_neg hne] at hslots
      simpa [Remapped, hne, hslots] using hslots'
  · have hne : n' ≠ 0 := Nat.ne_of_gt hn'
    simpa [Remapped, hne] using hslots'

theorem Remapped.trans_same {n : Nat} (hm : Remapped n m m')
    (ht : m''.table.entries = m'.table.entries) (hs : m''.slots = m'.slots) : Remapped n m m'' :=
  hm.trans (.of_same ht hs)

theorem remapped_of_still (hc : Changes (fun _ => False) m m') : Remapped 0 m m' := by
  refine hc.keep (I := Remapped 0 m) (fun {m₁ m₂} h₁ hstep => ?_) (.of_same rfl rfl)
  rcases hstep.cases with ⟨a, rfl⟩ | ⟨t, ht, -⟩ | ⟨ht, hs, -⟩
  · exact h₁.trans_same Table.entries_find rfl
  · exact ht.elim
  · exact h₁.trans_same (congrArg Table.entries ht) hs

theorem remapped_of_remaps (hr : Remaps m m') : Remapped 1 m m' := by
  obtain ⟨m₁, t, m₂, -, hi, hfrom⟩ := hr
  refine hfrom.keep (I := fun m => m.slots = .empty) (fun {m₃ m₄} h₃ hstep => ?_) ?_
  · rcases hstep.cases with ⟨a, rfl⟩ | ⟨t, -, hi⟩ | ⟨-, hs, -⟩
    · exact h₃
    · obtain ⟨-, rfl⟩ := install_ok hi
      rfl
    · exact hs.trans h₃
  · obtain ⟨-, rfl⟩ := install_ok hi
    rfl

end MemoryMap

namespace Bus

/-- How many notifications of a resolution have the handler install a table. -/
def installations (h : Handler σ) (installs : σ → Range → MemoryMap → Bool) (d : Direction)
    (a : UInt32) (limit : Nat) (b : Bus σ) : Nat :=
  let (found, b) := b.find a
  match found.range.served d with
  | some _ => 0
  | none =>
    if found.range.access.has .device then 0
    else if found.range.access.has .notify then
      (installs b.state found.range b.map).toNat +
        match b.notify h found.range, limit with
        | (true, b), limit + 1 => installations h installs d a limit b
        | _, _ => 0
    else 0

variable {h : Handler σ} {installs : σ → Range → MemoryMap → Bool} {limit : Nat} {b b' : Bus σ}
  {d : Direction} {a : UInt32} {s : Service}

theorem remapped_find {found : Lookup} (hfind : b.find a = (found, b')) :
    MemoryMap.Remapped 0 b.map b'.map := by
  obtain ⟨-, rfl⟩ := Prod.mk.inj ((find_eq b a).symm.trans hfind)
  exact .of_same Table.entries_find rfl

theorem remapped_notify (hh : h.Declares installs) {r : Range} {accepted : Bool}
    (hn : b.notify h r = (accepted, b')) :
    MemoryMap.Remapped (installs b.state r b.map).toNat b.map b'.map := by
  have hm := hh b.state r b.map
  rw [notify_map hn]
  cases hi : installs b.state r b.map with
  | false =>
    simp only [hi] at hm
    exact (MemoryMap.remapped_of_still hm).trans_same rfl rfl
  | true =>
    simp only [hi, if_true] at hm
    exact (MemoryMap.remapped_of_remaps hm).trans_same rfl rfl

/-- A resolution changes the slots only through the tables that the handler installs on the way. -/
theorem remapped_resolve (hh : h.Declares installs) (hr : b.resolve h d a limit = .ok (s, b')) :
    MemoryMap.Remapped (b.installations h installs d a limit) b.map b'.map := by
  fun_induction resolve h d a limit b generalizing s b' with
  | case1 limit b found b₁ hfind k hk =>
    obtain ⟨-, rfl⟩ := Prod.mk.inj (Except.ok.inj hr)
    unfold installations
    simp only [hfind, hk]
    exact remapped_find hfind
  | case2 limit b found b₁ hfind hk hdev =>
    obtain ⟨-, rfl⟩ := Prod.mk.inj (Except.ok.inj hr)
    unfold installations
    simp only [hfind, hk, hdev, if_true]
    exact (remapped_find hfind).trans_same rfl rfl
  | case3 => cases hr
  | case4 b found b₁ hfind hk hdev hnot b₂ limit hn ih =>
    have hnotify := (remapped_find hfind).trans (remapped_notify hh hn)
    unfold installations
    simp only [hfind, hk, hdev, hnot, hn, if_true]
    simpa [Nat.add_assoc] using hnotify.trans (ih hr)
  | case5 limit b found b₁ hfind hk hdev hnot b₂ hn =>
    obtain ⟨-, rfl⟩ := Prod.mk.inj (Except.ok.inj hr)
    have hnotify := (remapped_find hfind).trans (remapped_notify hh hn)
    unfold installations
    simp only [hfind, hk, hdev, hnot, hn, if_true]
    have hend : MemoryMap.Remapped 0 b₂.map
        ((b₂.countRejected.note (.declined found.range.tag d a)).countFailed).map := .of_same rfl rfl
    simpa using hnotify.trans hend
  | case6 limit b found b₁ hfind hk hdev hnot =>
    obtain ⟨-, rfl⟩ := Prod.mk.inj (Except.ok.inj hr)
    unfold installations
    simp only [hfind, hk, hdev, hnot]
    exact (remapped_find hfind).trans_same rfl rfl

end Bus
end MemoryBus
