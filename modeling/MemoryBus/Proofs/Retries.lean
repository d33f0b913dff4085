import MemoryBus.Proofs.Parts
import MemoryBus.Proofs.Remapping

/-! An accepted notification makes the access a new one, in the state that the handler leaves. -/
namespace MemoryBus

variable {σ : Type}

/-! Counting lookups. -/

section

variable {P : Table → Prop} {m m' : MemoryMap}

theorem Change.lookups_le (hc : Change P m m') : m.tableStats.lookups ≤ m'.tableStats.lookups := by
  cases hc with
  | find a => exact Nat.le_succ _
  | install ht hi =>
    obtain ⟨-, rfl⟩ := MemoryMap.install_ok hi
    exact Nat.le_add_right _ _
  | restore hr =>
    obtain ⟨banks, -, rfl⟩ := MemoryMap.restore_ok hr
    exact Nat.le_refl _
  | loadImage i path file =>
    obtain ⟨banks, journal, -, heq⟩ := m.loadImage_snd i path file
    rw [heq]
    exact Nat.le_refl _
  | _ => exact Nat.le_refl _

/-- No operation on a map forgets a lookup. -/
theorem Changes.lookups_le (hc : Changes P m m') : m.tableStats.lookups ≤ m'.tableStats.lookups :=
  hc.keep (I := fun m' => m.tableStats.lookups ≤ m'.tableStats.lookups)
    (fun hm hstep => Nat.le_trans hm hstep.lookups_le) (Nat.le_refl _)

end

namespace Bus

/-- The lookups in the tables that the map has held. -/
def lookups (b : Bus σ) : Nat := b.map.tableStats.lookups

variable (h : Handler σ) (q : Request)

/-- Range `r` settles a part that was looked up and found there, without a notification being accepted.
The handler makes `n` lookups meanwhile. -/
inductive SettledBy (r : Range) (b : Bus σ) : Nat → UInt32 → Bus σ → Prop
  | memory {k : Backing} {v : UInt32} {b' : Bus σ} : r.served q.direction = some k →
    (b.remember q.direction q.width r k).transfer q k.bank (k.offset q.address) = .ok (v, b') →
    SettledBy r b 0 v b'
  | device : r.served q.direction = none → r.access.has .device = true →
    SettledBy r b 0 (b.countDevice.callDevice h r q).1 (b.countDevice.callDevice h r q).2
  | declined {n : Nat} {b' : Bus σ} : r.Asks q.direction → b.notify h r = (false, b') →
    b'.lookups = b.lookups + n → SettledBy r b n 0
      ((b'.countRejected.note (.declined r.tag q.direction q.address)).countFailed)
  | unmapped : r.served q.direction = none → r.access.has .device = false →
    r.access.has .notify = false →
    SettledBy r b 0 0 ((b.note (.unmapped q.direction q.address)).countFailed)

/-- A part misses its slot, the handler is told of the range that is found, and accepts. It makes `n`
lookups meanwhile. -/
structure Renews (n : Nat) (b b' : Bus σ) : Prop where
  misses : b.Misses q
  asks : (b.map.find q.address).1.range.Asks q.direction
  accepts : (b.find q.address).2.notify h (b.map.find q.address).1.range = (true, b')
  lookups : b'.lookups = (b.find q.address).2.lookups + n

/-- `k` accepted notifications one after the other, with `n` lookups by the handler. -/
inductive Retries : Nat → Nat → Bus σ → Bus σ → Prop
  | refl (b : Bus σ) : Retries 0 0 b b
  | head {k n m : Nat} {b b₁ b' : Bus σ} : Renews h q n b b₁ → Retries k m b₁ b' →
    Retries (k + 1) (n + m) b b'

variable {h q} {limit n k : Nat} {r : Range} {v : UInt32} {b b' b₁ : Bus σ}

theorem lookups_find (b : Bus σ) (a : UInt32) : (b.find a).2.lookups = b.lookups + 1 := rfl

theorem lookups_le_notify (hh : h.Confined fun _ => True) {accepted : Bool}
    (hn : b.notify h r = (accepted, b')) : ∃ n, b'.lookups = b.lookups + n := by
  have hle : b.lookups ≤ b'.lookups := by
    rw [Bus.lookups, Bus.lookups, notify_map hn]
    exact (hh b.state r b.map).lookups_le
  exact ⟨b'.lookups - b.lookups, by omega⟩

/-- The lookup that found the range was the last but those of the handler. -/
theorem SettledBy.lookups_eq (hs : SettledBy h q r b n v b') : b'.lookups = b.lookups + n := by
  cases hs with
  | memory hk ht =>
    obtain ⟨banks, -, rfl⟩ := transfer_banks ht
    rfl
  | device =>
    exact callDevice_map (h := h) (b := b.countDevice)
      (I := fun m => m.tableStats.lookups = b.lookups) (fun _ hm => hm) rfl r q
  | declined _ _ hlookups => exact hlookups
  | unmapped => rfl

/-- No operation of the handler makes a slot know an address that it did not know. -/
theorem Misses.notify (hh : h.Confined fun _ => True) (hb : b.Misses q) {accepted : Bool}
    (hn : b.notify h r = (accepted, b')) : b'.Misses q := by
  obtain ⟨installs, hdeclares⟩ := hh.exists_declares
  have hslots := (remapped_notify hdeclares hn).slots
  unfold Misses
  rw [hslots]
  split
  · exact hb
  · rw [Slots.get_empty]
    exact Slot.translate_empty _

theorem Renews.misses_after (hh : h.Confined fun _ => True) (hr : Renews h q n b b') :
    b'.Misses q :=
  Misses.notify (b := (b.find q.address).2) hh hr.misses hr.accepts

theorem serve_of_misses (hb : b.Misses q) : b.serve h limit q = (do
    match ← b.resolve h q.direction q.address limit with
    | (.memory r k, b) =>
      (b.remember q.direction q.width r k).transfer q k.bank (k.offset q.address)
    | (.device r, b) => return b.callDevice h r q
    | (.failed, b) => return (0, b)) := by
  unfold serve
  rewrite [hb]
  rfl

/-- A part whose range settles it is served as the range says. -/
theorem SettledBy.serve (hb : b.Misses q)
    (hs : SettledBy h q (b.map.find q.address).1.range (b.find q.address).2 n v b') (limit : Nat) :
    b.serve h limit q = .ok (v, b') := by
  rw [serve_of_misses hb]
  unfold resolve
  rw [find_eq] at hs ⊢
  cases hs with
  | memory hk ht =>
    simp only [hk]
    exact ht
  | device hk hdev => simp only [hk, hdev, if_true]; rfl
  | declined hasks hn _ =>
    simp only [hasks.unserved, hasks.no_device, hasks.notifies, hn]
    rfl
  | unmapped hk hdev hnot =>
    simp only [hk, hdev, hnot]
    rfl

/-- An accepted notification makes the part a new one. -/
theorem Renews.serve (hh : h.Confined fun _ => True) (hr : Renews h q n b b') (limit : Nat) :
    b.serve h (limit + 1) q = b'.serve h limit q := by
  have hresolve : b.resolve h q.direction q.address (limit + 1) =
      b'.resolve h q.direction q.address limit := by
    have haccepts := hr.accepts
    rw [find_eq] at haccepts
    rw [resolve]
    simp only [find_eq, hr.asks.unserved, hr.asks.no_device, hr.asks.notifies, haccepts, if_true]
    rfl
  rw [serve_of_misses hr.misses, serve_of_misses (hr.misses_after hh), hresolve]

theorem Renews.serve_zero (hr : Renews h q n b b') : b.serve h 0 q = .error (.unresolved q.address) := by
  have haccepts := hr.accepts
  rw [find_eq] at haccepts
  rw [serve_of_misses hr.misses, resolve]
  simp only [find_eq, hr.asks.unserved, hr.asks.no_device, hr.asks.notifies, haccepts, if_true]
  rfl

/-- What the first lookup of a part finds: a bank, what settles the part, or a handler that accepts. -/
theorem found_cases (hh : h.Confined fun _ => True) (hb : b.Misses q) :
    (∃ k, (b.map.find q.address).1.range.served q.direction = some k) ∨
      (∃ n v b', SettledBy h q (b.map.find q.address).1.range (b.find q.address).2 n v b') ∨
      ∃ n b', Renews h q n b b' := by
  cases hk : (b.map.find q.address).1.range.served q.direction with
  | some k => exact .inl ⟨k, rfl⟩
  | none =>
    refine .inr ?_
    cases hdev : (b.map.find q.address).1.range.access.has .device with
    | true => exact .inl ⟨0, _, _, .device hk hdev⟩
    | false =>
      cases hnot : (b.map.find q.address).1.range.access.has .notify with
      | false => exact .inl ⟨0, 0, _, .unmapped hk hdev hnot⟩
      | true =>
        obtain ⟨⟨accepted, b₁⟩, hn⟩ : ∃ reply,
          (b.find q.address).2.notify h (b.map.find q.address).1.range = reply := ⟨_, rfl⟩
        obtain ⟨n, hlookups⟩ := lookups_le_notify hh hn
        cases accepted with
        | false => exact .inl ⟨n, 0, _, .declined ⟨hk, hdev, hnot⟩ hn hlookups⟩
        | true => exact .inr ⟨n, b₁, hb, ⟨hk, hdev, hnot⟩, hn, hlookups⟩

/-- The first lookup of a part settles it, or the handler accepts and the part begins anew. -/
theorem settledBy_or_renews (hh : h.Confined fun _ => True) (hb : b.Misses q)
    (hs : b.serve h limit q = .ok (v, b')) :
    (∃ n, SettledBy h q (b.map.find q.address).1.range (b.find q.address).2 n v b') ∨
      ∃ n limit' b₁, limit = limit' + 1 ∧ Renews h q n b b₁ ∧ b₁.serve h limit' q = .ok (v, b') := by
  rcases found_cases hh hb with ⟨k, hk⟩ | ⟨n, u, c, hc⟩ | ⟨n, b₁, hr⟩
  · rw [serve_of_misses hb] at hs
    unfold resolve at hs
    simp only [find_eq, hk] at hs
    exact .inl ⟨0, .memory hk hs⟩
  · -- What settles a part does so in one way.
    obtain ⟨rfl, rfl⟩ := Prod.mk.inj (Except.ok.inj ((hc.serve hb limit).symm.trans hs))
    exact .inl ⟨n, hc⟩
  · cases limit with
    | zero => cases hr.serve_zero.symm.trans hs
    | succ limit => exact .inr ⟨n, limit, b₁, rfl, hr, hr.serve hh limit ▸ hs⟩

namespace Retries

theorem serve (hh : h.Confined fun _ => True) (hr : Retries h q k n b b') (limit : Nat) :
    b.serve h (limit + k) q = b'.serve h limit q := by
  induction hr with
  | refl => rfl
  | head hrenews _ ih => exact (hrenews.serve hh _).trans ih

/-- An accepted notification is one lookup of the part, and what the handler looks up. -/
theorem lookups_eq (hr : Retries h q k n b b') : b'.lookups = b.lookups + k + n := by
  induction hr with
  | refl => rfl
  | @head k n m b b₁ b' hrenews _ ih =>
    have hfind := lookups_find b q.address
    have hnotify := hrenews.lookups
    omega

theorem notifications_eq (hr : Retries h q k n b b') :
    b'.dispatch = { b.dispatch with notifications := b.dispatch.notifications + k } := by
  induction hr with
  | refl => rfl
  | @head k n m b b₁ b' hrenews _ ih =>
    rw [ih, eq_of_notify hrenews.accepts, Nat.add_comm k, ← Nat.add_assoc]
    rfl

theorem misses (hh : h.Confined fun _ => True) (hr : Retries h q k n b b') (hb : b.Misses q) :
    b'.Misses q := by
  induction hr with
  | refl => exact hb
  | head hrenews _ ih => exact ih (hrenews.misses_after hh)

end Retries

/-- A part that completes is settled by the range that the last table gives. -/
theorem exists_retries (hh : h.Confined fun _ => True) (hb : b.Misses q)
    (hs : b.serve h limit q = .ok (v, b')) : ∃ k n m c, k ≤ limit ∧ Retries h q k n b c ∧
      SettledBy h q (c.map.find q.address).1.range (c.find q.address).2 m v b' := by
  induction limit generalizing b with
  | zero =>
    rcases settledBy_or_renews hh hb hs with ⟨m, hsettled⟩ | ⟨n, limit, b₁, hlimit, -, -⟩
    · exact ⟨0, 0, m, b, Nat.le_refl 0, .refl b, hsettled⟩
    · cases hlimit
  | succ limit ih =>
    rcases settledBy_or_renews hh hb hs with ⟨m, hsettled⟩ | ⟨n, limit', b₁, hlimit, hrenews, hs₁⟩
    · exact ⟨0, 0, m, b, Nat.zero_le _, .refl b, hsettled⟩
    · obtain rfl := Nat.succ.inj hlimit
      obtain ⟨k, n', m, c, hk, hretries, hsettled⟩ := ih (hrenews.misses_after hh) hs₁
      exact ⟨k + 1, n + n', m, c, Nat.succ_le_succ hk, .head hrenews hretries, hsettled⟩

/-- A bank that serves the part leaves its range in the slot. -/
theorem SettledBy.filledBy (hq : q.Aligned) {k : Backing}
    (hk : (b.map.find q.address).1.range.served q.direction = some k)
    (hs : SettledBy h q (b.map.find q.address).1.range (b.find q.address).2 n v b') :
    (b'.map.slots.get q.direction q.width).FilledBy b'.map.table q.direction q.width
      (b.map.find q.address).1.index := by
  rw [find_eq] at hs
  cases hs with
  | memory hk' ht =>
    obtain ⟨banks, -, rfl⟩ := transfer_banks ht
    exact MemoryMap.filledBy_remember hk' hq
  | device hnone => exact absurd (hnone.symm.trans hk) (by simp)
  | declined hasks => exact absurd (hasks.unserved.symm.trans hk) (by simp)
  | unmapped hnone => exact absurd (hnone.symm.trans hk) (by simp)

end Bus

namespace Operation

variable {h : Handler σ} {q : Request} {b : Bus σ} {op : Operation}

/-- An access of one part misses its slot, and the handler, which performs operations on the map,
accepts a notification. Then the access ends as the whole access does that is made in the state that
the handler leaves, with one notification more. So it ends as the last of these accesses, after `k`
accepted notifications: it is settled by the range that the table then in force gives, and has looked up
`k + 1` times, not counting the handler's own lookups. -/
theorem retry_is_fresh_access (hh : h.Confined fun _ => True) (hop : op.parts = [q])
    (hmiss : (b.map.slots.get q.direction q.width).translate q.address = none) :
    (∀ found b₁ b₂, b.find q.address = (found, b₁) → found.range.Asks q.direction →
        b₁.notify h found.range = (true, b₂) →
        b₂ = ⟨(h.notify b.state found.range b₁.map).map.note (.notified found.range true),
          (h.notify b.state found.range b₁.map).state,
          { b.dispatch with notifications := b.dispatch.notifications + 1 }⟩ ∧
        ∀ limit, op.perform (Bus.port h (limit + 1)) b = op.perform (Bus.port h limit) b₂) ∧
      ∀ limit answer b', op.perform (Bus.port h limit) b = .ok (answer, b') →
        ∃ k n m c v, k ≤ limit ∧ Bus.Retries h q k n b c ∧
          c.dispatch = { b.dispatch with notifications := b.dispatch.notifications + k } ∧
          (∀ limit', op.perform (Bus.port h limit') c = .ok (answer, b')) ∧
          Bus.SettledBy h q (c.map.table.find q.address).1.range (c.find q.address).2 m v b' ∧
          b'.lookups = b.lookups + (k + 1) + (n + m) ∧
          ((c.map.table.find q.address).1.range.served q.direction ≠ none →
            (b'.map.slots.get q.direction q.width).FilledBy b'.map.table q.direction q.width
              (c.map.table.find q.address).1.index) := by
  constructor
  · intro found b₁ b₂ hfind hasks hn
    obtain ⟨rfl, rfl⟩ := Prod.mk.inj ((Bus.find_eq b q.address).symm.trans hfind)
    obtain ⟨n, hlookups⟩ := Bus.lookups_le_notify hh hn
    have hrenews : Bus.Renews h q n b b₂ := ⟨hmiss, hasks, hn, hlookups⟩
    refine ⟨Bus.eq_of_notify hn, fun limit => ?_⟩
    rw [perform_part hop, perform_part hop, hrenews.serve hh limit]
  · intro limit answer b' hdone
    rw [perform_part hop] at hdone
    obtain ⟨⟨v, b''⟩, hserve, hpair⟩ := Bus.map_ok hdone
    obtain ⟨rfl, rfl⟩ := Prod.mk.inj hpair
    obtain ⟨k, n, m, c, hk, hretries, hsettled⟩ := Bus.exists_retries hh hmiss hserve
    have hc : c.Misses q := hretries.misses hh hmiss
    have hlookups := Bus.lookups_find c q.address
    refine ⟨k, n, m, c, v, hk, hretries, hretries.notifications_eq, fun limit' => ?_, hsettled, ?_, ?_⟩
    · rw [perform_part hop, hsettled.serve hc limit']
      rfl
    · have hstart := hretries.lookups_eq
      have hend := hsettled.lookups_eq
      omega
    · intro hserved
      obtain ⟨κ, hκ⟩ := Option.ne_none_iff_exists'.mp hserved
      exact hsettled.filledBy (op.aligned_parts q (by simp [hop])) hκ

/-- A word whose window is installed when the handler is told of it. -/
theorem retry_is_fresh_access_window : ∃ (h : Handler Unit) (op : Operation) (q : Request)
    (b b₂ : Bus Unit) (answer : Reply) (b' : Bus Unit), h.Confined (fun _ => True) ∧
      op.parts = [q] ∧ (b.map.slots.get q.direction q.width).translate q.address = none ∧
      (b.find q.address).1.range.Asks q.direction ∧
      (b.find q.address).2.notify h (b.find q.address).1.range = (true, b₂) ∧
      op.perform (Bus.port h 1) b = op.perform (Bus.port h 0) b₂ ∧
      op.perform (Bus.port h 1) b = .ok (answer, b') ∧
      ∃ k n m c v, k ≤ 1 ∧ Bus.Retries h q k n b c ∧
        Bus.SettledBy h q (c.map.table.find q.address).1.range (c.find q.address).2 m v b' ∧
        b'.lookups = b.lookups + (k + 1) + (n + m) := by
  obtain ⟨h, answers, b, b₂, answer, b', hh, hrun, hmiss, hasks, hn, hperform⟩ :
      ∃ (h : Handler Unit) (answers : List Reply) (b b₂ : Bus Unit) (answer : Reply) (b' : Bus Unit),
        h.Confined (fun _ => True) ∧
        run (Bus.port h 1) (Bus.attach h (.ofBanks ⟨#[⟨"ram", ⟨#[7, 9]⟩⟩]⟩) ())
          [.install ⟨.ofRanges [.ofAccess 0 0 .notify] .guard, .zero,
            Arena.valid_ofRanges rfl rfl rfl (by decide)⟩] = .ok (answers, b) ∧
        (b.map.slots.get .read .word).translate 0x0102 = none ∧
        (b.find 0x0102).1.range.Asks .read ∧
        (b.find 0x0102).2.notify h (b.find 0x0102).1.range = (true, b₂) ∧
        (readWord 0x0102).perform (Bus.port h 1) b = .ok (answer, b') :=
    ⟨.installing ⟨.ofRanges [⟨0xFF00, 0x0100, .read, some ⟨0, 0, 1⟩, 0⟩] .guard, .zero,
      Arena.valid_ofRanges rfl rfl rfl (by decide)⟩, _, _, _, _, _,
      Handler.confined_installing trivial, rfl, rfl, ⟨rfl, rfl, rfl⟩, rfl, rfl⟩
  have hop : (readWord 0x0102).parts = [.read .word 0x0102] := rfl
  obtain ⟨hfresh, hretries⟩ := retry_is_fresh_access hh hop hmiss
  obtain ⟨-, hsame⟩ := hfresh _ _ _ rfl hasks hn
  obtain ⟨k, n, m, c, v, hk, hto, -, -, hsettled, hlookups, -⟩ := hretries 1 answer b' hperform
  exact ⟨h, _, _, b, b₂, answer, b', hh, hop, hmiss, hasks, hn, hsame 0, hperform, k, n, m, c, v, hk, hto,
    hsettled, hlookups⟩

end Operation
end MemoryBus
