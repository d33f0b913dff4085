import MemoryBus.Machine.Trace
import MemoryBus.Proofs.Windows
import MemoryBus.Proofs.WriteWindows

/-! The demonstration machine on the Mac Plus serves what the trace asks for, and maps its expansion window once. -/
namespace MemoryBus

variable {σ : Type} {h : Handler σ} {limit : Nat}

namespace Bus

variable {b b' b₁ : Bus σ} {q : Request} {k : Backing}

/-- The handler has no part in what changed, and neither the entries nor the shape of the banks did. -/
structure Silent (b b' : Bus σ) : Prop where
  sound : b'.map.Sound
  entries : b'.map.table.entries = b.map.table.entries
  shape : b'.map.banks.shape = b.map.banks.shape
  state : b'.state = b.state
  dispatch : b'.dispatch = b.dispatch
  calls : ∀ r q v, .deviceCalled r q v ∈ b'.map.journal → .deviceCalled r q v ∈ b.map.journal

theorem silent_find (hb : b.map.Sound) (a : UInt32) : b.Silent (b.find a).2 where
  sound := hb.find a
  entries := Table.entries_find
  shape := rfl
  state := rfl
  dispatch := rfl
  calls r q v hcall := by
    simp only [find, MemoryMap.find, Lookup.event?, List.mem_append] at hcall
    refine hcall.resolve_left ?_
    split <;> simp

theorem Silent.transfer (hb : b.Silent b₁) {bank offset : Nat} {v : UInt32}
    (ht : b₁.transfer q bank offset = .ok (v, b')) : b.Silent b' := by
  obtain ⟨banks, hshape, rfl⟩ := transfer_banks ht
  exact ⟨hb.sound.of_same rfl rfl (Banks.sizes_prefix_of_shape (hshape ▸ List.prefix_rfl)), hb.entries,
    hshape.trans hb.shape, hb.state, hb.dispatch, hb.calls⟩

/-- A slot knows the address only if the range that owns it is ready. -/
theorem misses_of_unserved (hb : b.map.Sound) (ht : b.map.table.Disjoint)
    (hk : (b.map.find q.address).1.range.served q.direction = none) : b.Misses q := by
  have hover : b.map.Over b.map.table := ⟨hb, rfl⟩
  unfold Misses
  cases hslot : (b.map.slots.get q.direction q.width).translate q.address with
  | none => rfl
  | some place =>
    have hcell := hover.cell?_of_slot ht hslot
    rw [hover.cell?_eq ht, hk] at hcell
    cases hcell

/-- A part that a bank serves, by its slot or after a lookup, is a transfer at its place. -/
theorem serve_of_served (hb : b.map.Sound) (ht : b.map.table.Disjoint) (hq : q.Aligned)
    (hk : (b.map.find q.address).1.range.served q.direction = some k) (limit : Nat) :
    ∃ v b', b.serve h limit q = .ok (v, b') ∧ b.Silent b' ∧
      b.map.banks.AgreeOutside (fun bank _ => q.direction = .write ∧ bank = k.bank) b'.map.banks := by
  have hover : b.map.Over b.map.table := ⟨hb, rfl⟩
  cases hslot : (b.map.slots.get q.direction q.width).translate q.address with
  | some place =>
    obtain ⟨bank, offset⟩ := place
    have hcell := hover.cell?_of_slot ht hslot
    rw [hover.cell?_eq ht, hk, Option.map_some] at hcell
    obtain ⟨rfl, rfl⟩ := Prod.mk.inj (Option.some.inj hcell)
    obtain ⟨v, b', htransfer⟩ := exists_transfer (hb.reaches_slot hslot)
    have hstart : b.Silent b := ⟨hb, rfl, rfl, rfl, rfl, fun _ _ _ hcall => hcall⟩
    refine ⟨v, b', ?_, hstart.transfer htransfer, agree_transfer htransfer fun hwrite _ _ _ => ⟨hwrite, rfl⟩⟩
    simpa only [serve, hslot] using htransfer
  | none =>
    have hfind := silent_find hb q.address
    obtain ⟨b₁, hb₁⟩ : ∃ b₁, b₁ = (b.find q.address).2.remember q.direction q.width
      (b.map.find q.address).1.range k := ⟨_, rfl⟩
    have hbanks : b₁.map.banks = b.map.banks := by rw [hb₁]; rfl
    have hfill : b.Silent b₁ := by
      rw [hb₁]
      exact ⟨hb.fill hk hq, hfind.entries, rfl, rfl, rfl, hfind.calls⟩
    have hreach : b₁.map.banks.Reaches q.width k.bank (k.offset q.address) :=
      hbanks ▸ (hb.find q.address).reaches_find hk hq
    obtain ⟨v, b', htransfer⟩ := exists_transfer hreach
    refine ⟨v, b', SettledBy.serve hslot (.memory hk (hb₁ ▸ htransfer)) limit, hfill.transfer htransfer, ?_⟩
    exact hbanks ▸ agree_transfer htransfer fun hwrite _ _ _ => ⟨hwrite, rfl⟩

end Bus

namespace Demo

variable {banks : Banks} {isMapped x : Bool} {b b' : Bus Demo} {q : Request} {qs : List Request} {r : Range}
  {op : Operation} {ops : List Operation} {xs : List Bool}

/-- The devices that the trace uses, and what it asks of them. -/
inductive Polls : Range → Request → Prop
  | timer : Polls via (.read .byte Trace.timerAddress)
  | serial (v : UInt32) : Polls scc (.write .byte Trace.serialAddress v)

/-- The machine in the middle of the trace: no access has failed, the banks but the first are as they were,
and the expansion window is mapped as soon as it has been touched. -/
structure Steady (banks : Banks) (isMapped : Bool) (b : Bus Demo) : Prop where
  sound : b.map.Sound
  entries : b.map.table.entries = windows isMapped ++ [.guard]
  layout : b.state.layout = layoutOf isMapped
  shape : b.map.banks.shape = shape
  kept : ∀ i, 0 < i → b.map.banks.bytes? i = banks.bytes? i
  dispatch : ∃ n, b.dispatch = ⟨n, isMapped.toNat, 0, 0⟩
  calls : ∀ r q v, .deviceCalled r q v ∈ b.map.journal → Polls r q

/-- What the trace asks for. The flag tells whether it touches the expansion window. -/
inductive Asks : Request → Bool → Prop
  | ram {q : Request} : ram.owns q.address = true → Asks q false
  | rom {q : Request} : q.direction = .read → rom.owns q.address = true → Asks q false
  | expansion {q : Request} : q.direction = .read → (expansion true).owns q.address = true → Asks q true
  | timer : Asks (.read .byte Trace.timerAddress) false
  | serial (v : UInt32) : Asks (.write .byte Trace.serialAddress v) false

theorem Steady.disjoint (hb : Steady banks isMapped b) : b.map.table.Disjoint := disjoint_of_entries hb.entries

theorem Steady.silent (hb : Steady banks isMapped b) (hs : b.Silent b')
    (hkept : ∀ i, 0 < i → b'.map.banks.bytes? i = b.map.banks.bytes? i) : Steady banks isMapped b' where
  sound := hs.sound
  entries := hs.entries.trans hb.entries
  layout := hs.state ▸ hb.layout
  shape := hs.shape.trans hb.shape
  kept i hi := (hkept i hi).trans (hb.kept i hi)
  dispatch := hs.dispatch ▸ hb.dispatch
  calls r q v hcall := hb.calls r q v (hs.calls r q v hcall)

/-- A window serves a part that only reads, or whose bytes are in the first bank. -/
theorem Steady.serve_window (hb : Steady banks isMapped b) (hr : r ∈ windows isMapped)
    (ho : r.owns q.address = true) {k : Backing} (hk : r.served q.direction = some k)
    (hbank : q.direction = .write → k.bank = 0) (hq : q.Aligned) (limit : Nat) :
    ∃ v b', b.serve handler limit q = .ok (v, b') ∧ Steady banks isMapped b' := by
  have hfound : (b.map.find q.address).1.range = r := range_find hb.entries hr ho
  obtain ⟨v, b', hserve, hsilent, hagree⟩ :=
    Bus.serve_of_served (h := handler) hb.sound hb.disjoint hq (hfound ▸ hk) limit
  refine ⟨v, b', hserve, hb.silent hsilent fun i hi => hagree.bytes? fun offset hwrite => ?_⟩
  exact absurd (hwrite.2.trans (hbank hwrite.1)) (Nat.ne_of_gt hi)

theorem exists_remark {s : Demo} {e : Event} (he : e ∈ (s.device r q).remarks) :
    ∃ text, e = .remark .trace text := by
  unfold device at he
  split at he
  · cases hd : q.direction <;> simp [hd] at he
  · exact ⟨_, List.mem_singleton.mp he⟩

/-- A device is called and answers. -/
theorem Steady.serve_device (hb : Steady banks isMapped b) (hr : r ∈ windows isMapped)
    (ho : r.owns q.address = true) (hk : r.served q.direction = none) (hdevice : r.access.has .device = true)
    (hpolls : Polls r q) (limit : Nat) :
    ∃ v b', b.serve handler limit q = .ok (v, b') ∧ Steady banks isMapped b' := by
  have hfound : (b.map.find q.address).1.range = r := range_find hb.entries hr ho
  have hmiss := Bus.misses_of_unserved hb.sound hb.disjoint (hfound ▸ hk)
  have hfind := hb.silent (Bus.silent_find hb.sound q.address) fun _ _ => rfl
  refine ⟨_, _, (Bus.SettledBy.device (hfound ▸ hk) (hfound ▸ hdevice)).serve hmiss limit, ?_⟩
  obtain ⟨n, hdispatch⟩ := hfind.dispatch
  rw [hfound, Bus.callDevice_eq]
  exact {
    sound := hfind.sound.of_same rfl rfl List.prefix_rfl
    entries := hfind.entries
    layout := (device_layout _ r q).trans hfind.layout
    shape := hfind.shape
    kept := hfind.kept
    dispatch := ⟨n + 1, by rw [Bus.countDevice, hdispatch]⟩
    calls r' q' v hcall := by
      rcases List.mem_cons.mp hcall with hnew | hcall
      · obtain ⟨rfl, rfl, -⟩ := Event.deviceCalled.inj hnew
        exact hpolls
      · rcases List.mem_append.mp hcall with hremark | hcall
        · obtain ⟨text, htext⟩ := exists_remark (List.mem_reverse.mp hremark)
          cases htext
        · exact hfind.calls r' q' v hcall }

theorem notify_of_mapped {s : Demo} {l : Layout} {m m' : MemoryMap} (hl : mapped? s.layout = some l)
    (hm : remap l m = .ok m') : s.notify (expansion false) m =
      ⟨true, { s with layout := l }, m'.note (.remark .info "Expansion window mapped")⟩ := by
  unfold mapped? at hl
  unfold notify
  rw [if_neg (by decide), hl]
  simp only [hm]

/-- The first touch of the expansion window has the machine map it. -/
theorem Steady.renews (hb : Steady banks false b) (hq : q.direction = .read)
    (ho : (expansion true).owns q.address = true) :
    ∃ n b₁, Bus.Renews handler q n b b₁ ∧ Steady banks true b₁ := by
  have hfound : (b.map.find q.address).1.range = expansion false :=
    range_find hb.entries (by simp [windows]) ho
  have hfind := hb.silent (Bus.silent_find hb.sound q.address) fun _ _ => rfl
  have hasks : (expansion false).Asks q.direction := by
    rw [hq]
    decide
  have hmiss := Bus.misses_of_unserved hb.sound hb.disjoint (hfound ▸ hasks.unserved)
  have hmapped : mapped? (b.find q.address).2.state.layout = some (layoutOf true) := by
    rw [hfind.layout]
    exact mapped?_macPlus
  obtain ⟨t, m', hremap, hi, ht⟩ := exists_remap hfind.shape true
  obtain ⟨b₁, hnotify⟩ : ∃ b₁, (b.find q.address).2.notify handler (expansion false) = (true, b₁) :=
    ⟨_, Prod.ext (congrArg NotifyReply.accepted (notify_of_mapped hmapped hremap)) rfl⟩
  obtain ⟨n, hlookups⟩ := Bus.lookups_le_notify confined_handler hnotify
  refine ⟨n, b₁, ⟨hmiss, hfound ▸ hasks, hfound ▸ hnotify, hlookups⟩, ?_⟩
  have heq := Bus.eq_of_notify hnotify
  have hreply : handler.notify (b.find q.address).2.state (expansion false) (b.find q.address).2.map = _ :=
    notify_of_mapped hmapped hremap
  obtain ⟨k, hdispatch⟩ := hfind.dispatch
  obtain ⟨-, rfl⟩ := MemoryMap.install_ok hi
  rw [heq, hreply]
  exact {
    sound := (MemoryMap.Sound.install hi).of_same rfl rfl List.prefix_rfl
    entries := ht
    layout := rfl
    shape := hfind.shape
    kept := hfind.kept
    dispatch := ⟨k, by rw [hdispatch]; rfl⟩
    calls r' q' v hcall := by
      simp only [MemoryMap.note, List.mem_cons, reduceCtorEq, false_or] at hcall
      exact hfind.calls r' q' v hcall }

/-- Every part that the trace asks for is served. -/
theorem Steady.serve (hb : Steady banks isMapped b) (hx : Asks q x) (hq : q.Aligned)
    (hlimit : Demo.limit ≤ limit) :
    ∃ v b', b.serve handler limit q = .ok (v, b') ∧ Steady banks (isMapped || x) b' := by
  have hmem : ∀ r ∈ [ram, rom, scc, iwm, via, expansion isMapped], r ∈ windows isMapped := fun _ hr => hr
  cases hx with
  | ram ho =>
    have hserved : ram.served q.direction = some ⟨0, 0, 0x003FFFFF⟩ := by cases q.direction <;> rfl
    rw [Bool.or_false]
    exact hb.serve_window (hmem ram (by simp)) ho hserved (fun _ => rfl) hq limit
  | rom hread ho =>
    have hserved : rom.served q.direction = some ⟨1, 0, 0x0001FFFF⟩ := by rw [hread]; rfl
    rw [Bool.or_false]
    exact hb.serve_window (hmem rom (by simp)) ho hserved (by simp [hread]) hq limit
  | timer =>
    rw [Bool.or_false]
    exact hb.serve_device (hmem via (by simp)) rfl rfl rfl .timer limit
  | serial v =>
    have howns : scc.owns Trace.serialAddress = true := by decide
    have hserved : scc.served .write = none := by decide
    rw [Bool.or_false]
    exact hb.serve_device (hmem scc (by simp)) howns hserved rfl (.serial v) limit
  | expansion hread ho =>
    have hserved : (expansion true).served q.direction = some ⟨2, 0, 0x0007FFFF⟩ := by rw [hread]; rfl
    have hlast : expansion true ∈ windows true := by simp [windows]
    rw [Bool.or_true]
    cases isMapped with
    | true => exact hb.serve_window hlast ho hserved (by simp [hread]) hq limit
    | false =>
      obtain ⟨n, b₁, hrenews, hb₁⟩ := hb.renews hread ho
      obtain ⟨limit, rfl⟩ : ∃ limit', limit = limit' + 1 := Nat.exists_eq_add_one.mpr hlimit
      rw [hrenews.serve confined_handler limit]
      exact hb₁.serve_window hlast ho hserved (by simp [hread]) hq limit

theorem Steady.serveEach (hb : Steady banks isMapped b) (hqs : ∀ q ∈ qs, Asks q x ∧ q.Aligned) (hne : qs ≠ [])
    (hlimit : Demo.limit ≤ limit) :
    ∃ vs b', b.serveEach handler limit qs = .ok (vs, b') ∧ Steady banks (isMapped || x) b' := by
  induction qs generalizing b isMapped with
  | nil => exact absurd rfl hne
  | cons q qs ih =>
    obtain ⟨hask, hq⟩ := hqs q (by simp)
    obtain ⟨v, b₁, hserve, hb₁⟩ := hb.serve hask hq hlimit
    simp only [Bus.serveEach, hserve, bind, Except.bind]
    by_cases hnil : qs = []
    · subst hnil
      exact ⟨[v], b₁, rfl, hb₁⟩
    · obtain ⟨vs, b', hrest, hb'⟩ := ih hb₁ (fun q hq => hqs q (by simp [hq])) hnil
      rw [hrest]
      exact ⟨v :: vs, b', rfl, by simpa [Bool.or_assoc] using hb'⟩

/-- So is every access. -/
theorem Steady.perform (hb : Steady banks isMapped b) (hop : ∀ q ∈ op.parts, Asks q x) (hne : op.parts ≠ [])
    (hlimit : Demo.limit ≤ limit) : ∃ answer b', op.perform (Bus.port handler limit) b = .ok (answer, b') ∧
      Steady banks (isMapped || x) b' := by
  obtain ⟨vs, b', heach, hb'⟩ := hb.serveEach (fun q hq => ⟨hop q hq, op.aligned_parts q hq⟩) hne hlimit
  refine ⟨op.reply vs, b', ?_, hb'⟩
  rw [Operation.perform_each (J := fun b => b.map.Sound) (Bus.carries_serve (keeps_sound confined_handler).carries)
    (fun hm => hm.aligned) hb.sound hne, heach]
  rfl

/-- An access all of whose parts the trace asks for. -/
def Uses (op : Operation) (x : Bool) : Prop := op.parts ≠ [] ∧ ∀ q ∈ op.parts, Asks q x

theorem Steady.run (hb : Steady banks isMapped b) (hops : List.Forall₂ Uses ops xs) (hlimit : Demo.limit ≤ limit) :
    ∃ answers b', Operation.run (Bus.port handler limit) b ops = .ok (answers, b') ∧
      Steady banks (isMapped || xs.or) b' := by
  induction hops generalizing b isMapped with
  | nil => exact ⟨[], b, rfl, by simpa using hb⟩
  | @cons op x ops xs hop _ ih =>
    obtain ⟨answer, b₁, hperform, hb₁⟩ := hb.perform hop.2 hop.1 hlimit
    obtain ⟨answers, b', hrun, hb'⟩ := ih hb₁
    refine ⟨answer :: answers, b', ?_, by simpa [Bool.or_assoc] using hb'⟩
    simp only [Operation.run, hperform, hrun, bind, Except.bind]
    rfl

/-- The machine before the trace. -/
theorem exists_start (hs : banks.shape = shape) : ∃ m, remap .macPlus (.ofBanks banks) = .ok m ∧
    Steady banks false (.attach handler m (.ofLayout .macPlus)) := by
  obtain ⟨t, m, hremap, hi, ht⟩ := exists_remap (m := .ofBanks banks) hs false
  refine ⟨m, hremap, ?_⟩
  obtain ⟨-, rfl⟩ := MemoryMap.install_ok hi
  exact {
    sound := (MemoryMap.Sound.install hi).of_same rfl rfl List.prefix_rfl
    entries := ht
    layout := rfl
    shape := hs
    kept := fun _ _ => rfl
    dispatch := ⟨0, rfl⟩
    calls r q v hcall := by
      simp [Bus.attach, MemoryMap.note, MemoryMap.ofBanks] at hcall }

end Demo

end MemoryBus
