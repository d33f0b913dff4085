import MemoryBus.Proofs.Coherence
import MemoryBus.Proofs.Telling

/-! A table that is not coherent has a run of accesses after which a slot and the list disagree. -/
namespace MemoryBus

variable {σ : Type} {h : Handler σ} {limit : Nat} {b b' b'' : Bus σ}

namespace Table

variable {t : Table} {i j : Nat} {a e : UInt32}

/-- What is ahead of `j` after two lookups that find `i` was ahead of it before. -/
theorem ahead_find_find {x : UInt32} {k : Nat} (hx : (t.find x).1.index = i)
    (ha : ((t.find x).2.find a).1.index = i) (h : ((t.find x).2.find a).2.Ahead k j) :
    k = i ∨ t.Ahead k j := by
  rcases ahead_find h with h | ⟨rfl, -⟩
  · rcases ahead_find h with h | ⟨rfl, -⟩
    · exact .inr h
    · exact .inl hx
  · exact .inl ha

/-- A lookup finds `i`, another puts `i` in front for `a`, and `y` still finds `j`. -/
theorem overtake_behind {x y : UInt32} (hahead : t.Ahead i j) (hx : (t.find x).1.index = i)
    (hy : (t.find y).1.index = j) (ho : (t.entry i).owns a = true) :
    ((t.find x).2.find a).1.index = i ∧ (((t.find x).2.find a).2.find y).1.index = j := by
  have hlt := hahead.lt
  have ha : ((t.find x).2.find a).1.index = i := by
    subst hx
    exact index_find_find hlt.1 ho
  refine ⟨ha, index_find_of_ahead (by simpa using hlt.2) ?_ fun k hk => ?_⟩
  · simpa [hy] using owns_of_find (t := t) (a := y)
  · simp only [entry_find]
    rcases ahead_find_find hx ha hk with rfl | hk
    · exact not_owns_of_ahead (hy ▸ hahead)
    · exact not_owns_of_ahead (hy ▸ hk)

/-- The same where `j` stands ahead of `i`: it is moved to the front first, so that afterwards only
`i` is ahead of it. -/
theorem overtake_ahead {x y : UInt32} (hahead : t.Ahead j i) (hx : (t.find x).1.index = i)
    (hy : (t.find y).1.index = j) (ho : (t.entry i).owns a = true) (hje : (t.entry j).owns e = true)
    (hie : (t.entry i).owns e = false) :
    (((t.find y).2.find x).2.find a).1.index = i ∧
      ((((t.find y).2.find x).2.find a).2.find e).1.index = j := by
  have hlt := hahead.lt
  have hx' : ((t.find y).2.find x).1.index = i := by
    refine index_find_of_ahead (by simpa using hlt.2) ?_ fun k hk => ?_
    · simpa [hx] using owns_of_find (t := t) (a := x)
    · simp only [entry_find]
      rcases ahead_find hk with hk | ⟨rfl, -⟩
      · exact not_owns_of_ahead (hx ▸ hk)
      · exact not_owns_of_ahead (hx ▸ hy ▸ hahead)
  have ha : (((t.find y).2.find x).2.find a).1.index = i := by
    rw [← hx']
    exact index_find_find (by simpa [hx'] using hlt.2) (by simpa [hx'] using ho)
  refine ⟨ha, index_find_of_ahead (by simpa using hlt.1) (by simpa using hje) fun k hk => ?_⟩
  rcases ahead_find_find hx' ha hk with rfl | hk
  · simpa using hie
  · subst hy
    exact absurd hk (not_ahead_find hlt.1)

/-- After some lookups `i` is found by an address that it owns, and then `j` is found. -/
theorem exists_overtaking (hi : t.Live i) (hj : t.Live j) (hje : (t.entry j).owns e = true)
    (hie : (t.entry i).owns e = false) (ho : (t.entry i).owns a = true) : ∃ as c,
      ((t.after as).find a).1.index = i ∧ ((t.after (as ++ [a])).find c).1.index = j := by
  obtain ⟨hlti, x, hx⟩ := hi
  obtain ⟨hltj, y, hy⟩ := hj
  have hne : i ≠ j := by
    rintro rfl
    simp [hje] at hie
  rcases ahead_or_ahead hlti hltj hne with hahead | hahead
  · refine ⟨[x], y, ?_⟩
    simpa only [after, findAll, List.cons_append, List.nil_append] using
      overtake_behind hahead hx hy ho
  · refine ⟨[y, x], e, ?_⟩
    simpa only [after, findAll, List.cons_append, List.nil_append] using
      overtake_ahead hahead hx hy ho hje hie

end Table

namespace Operation

variable {p : Port σ} {xs ys : List Operation} {answers answers' : List Reply}

theorem run_append (hx : run p b xs = .ok (answers, b')) (hy : run p b' ys = .ok (answers', b'')) :
    run p b (xs ++ ys) = .ok (answers ++ answers', b'') := by
  induction xs generalizing b answers with
  | nil =>
    obtain ⟨rfl, rfl⟩ := Prod.mk.inj (Except.ok.inj hx)
    exact hy
  | cons op xs ih =>
    obtain ⟨answer, c, rest, hop, hrest, rfl⟩ := run_cons hx
    simp only [List.cons_append, run, hop, bind, Except.bind, ih hrest, pure, Except.pure]

/-- Lookups leave the slots and the banks alone. -/
theorem run_finds (p : Port σ) (b : Bus σ) (as : List UInt32) : ∃ answers b',
    run p b (as.map .find) = .ok (answers, b') ∧ b'.map.table = b.map.table.after as ∧
      b'.map.slots = b.map.slots ∧ b'.map.banks = b.map.banks := by
  induction as generalizing b with
  | nil => exact ⟨[], b, rfl, rfl, rfl, rfl⟩
  | cons a as ih =>
    obtain ⟨answers, b', hrun, ht, hs, hb⟩ := ih (b.find a).2
    refine ⟨.found (b.find a).1.range :: answers, b', ?_, ht, hs, hb⟩
    simp only [List.map_cons, run, perform, hrun, bind, Except.bind, pure, Except.pure]

/-- An access of one byte in this direction. -/
def touch : Direction → UInt32 → Operation
  | .read, a => .readByte a
  | .write, a => .writeByte a 0

/-- With empty slots, an access is served by the range that a lookup finds, and remembers it. -/
theorem touch_fills (hb : b.map.Sound) (hs : b.map.slots = .empty) {d : Direction} {a : UInt32}
    {k : Backing} (hk : (b.map.find a).1.range.served d = some k) : ∃ answer b',
      (touch d a).perform (Bus.port h limit) b = .ok (answer, b') ∧
        b'.map.table = (b.map.table.find a).2 ∧
        b'.map.slots.get d .byte = .ofRange (b.map.find a).1.range k := by
  have hfilled := Slots.get_remember b.map.slots d d .byte .byte (b.map.find a).1.range k
  rw [if_pos ⟨rfl, rfl⟩] at hfilled
  have hres : b.resolve h d a limit = .ok (.memory (b.map.find a).1.range k, (b.find a).2) := by
    unfold Bus.resolve
    simp only [Bus.find_eq, hk]
  have hreach : ((b.find a).2.remember d .byte (b.map.find a).1.range k).map.banks.Reaches .byte
      k.bank (k.offset a) := (hb.find a).reaches_find hk (by simp)
  cases d with
  | read =>
    have hslot : b.map.slots.readByte.translate a = none := hs ▸ Slot.translate_empty a
    obtain ⟨v, hv⟩ := Banks.readByte_ok hreach
    refine ⟨.byte v, (b.find a).2.remember .read .byte (b.map.find a).1.range k, ?_, rfl, hfilled⟩
    simp only [touch, perform, Bus.port, Bus.readByte, hslot, Bus.fetchByte, hres, hv, bind, Except.bind,
      pure, Except.pure, Except.map]
  | write =>
    have hslot : b.map.slots.writeByte.translate a = none := hs ▸ Slot.translate_empty a
    have hperform : (touch .write a).perform (Bus.port h limit) b =
        (((b.find a).2.remember .write .byte (b.map.find a).1.range k).putByte k.bank (k.offset a) 0).map
          fun b => (.done, b) := by
      simp only [touch, perform, Bus.port, Bus.writeByte, hslot, Bus.storeByte, hres, bind, Except.bind]
    rw [Bus.putByte_ok hreach] at hperform
    exact ⟨_, _, hperform, rfl, hfilled⟩

/-- Lookups, then an access that fills a slot, then one more lookup, which leaves the slot as it is. -/
theorem run_overtaking (hb : b.map.Sound) (hs : b.map.slots = .empty) {as : List UInt32} {c a : UInt32}
    {d : Direction} {k : Backing} (hk : ((b.map.table.after as).find a).1.range.served d = some k) :
    ∃ ops answers b', (∀ op ∈ ops, op.isAccess = true) ∧
      run (Bus.port h limit) b ops = .ok (answers, b') ∧
      b'.map.table = ((b.map.table.after (as ++ [a])).find c).2 ∧
      b'.map.slots.get d .byte = .ofRange ((b.map.table.after as).find a).1.range k := by
  obtain ⟨xs, b₁, hfinds, ht₁, hs₁, hb₁⟩ := run_finds (Bus.port h limit) b as
  have hsound₁ : b₁.map.Sound :=
    hb.of_same (by rw [ht₁, Table.entries_after]) hs₁ (hb₁ ▸ List.prefix_rfl)
  rw [← ht₁] at hk
  obtain ⟨x, b₂, htouch, ht₂, hslot⟩ : ∃ x b₂,
      (touch d a).perform (Bus.port h limit) b₁ = .ok (x, b₂) ∧
        b₂.map.table = (b₁.map.table.find a).2 ∧
        b₂.map.slots.get d .byte = .ofRange (b₁.map.find a).1.range k :=
    touch_fills hsound₁ (hs₁.trans hs) hk
  have hlast : run (Bus.port h limit) b₁ [touch d a, .find c] =
      .ok ([x, .found (b₂.find c).1.range], (b₂.find c).2) := by
    simp only [run, htouch, bind, Except.bind]
    rfl
  refine ⟨as.map .find ++ [touch d a, .find c], _, (b₂.find c).2, ?_, run_append hfinds hlast, ?_, ?_⟩
  · intro op hop
    simp only [List.mem_append, List.mem_map, List.mem_cons, List.not_mem_nil, or_false] at hop
    rcases hop with ⟨_, _, rfl⟩ | rfl | rfl
    · rfl
    · cases d <;> rfl
    · rfl
  · change (b₂.map.table.find c).2 = _
    rw [ht₂, ht₁, Table.after_snoc]
  · rw [← ht₁]
    exact hslot

/-- Every run of accesses from here ends with slots that agree with the list. -/
def StaysConsistent (h : Handler σ) (limit : Nat) (b : Bus σ) : Prop :=
  ∀ ops answers b', (∀ op ∈ ops, op.isAccess = true) →
    run (Bus.port h limit) b ops = .ok (answers, b') → b'.map.Consistent

/-- If `i` serves an access and then `j` is found, `j` has to serve the same address alike. -/
theorem StaysConsistent.served_alike (hstays : StaysConsistent h limit b) (hb : b.map.Sound)
    (hs : b.map.slots = .empty) {as : List UInt32} {c a : UInt32} {i j : Nat} {d : Direction}
    {k : Backing} (hi : ((b.map.table.after as).find a).1.index = i)
    (hj : ((b.map.table.after (as ++ [a])).find c).1.index = j) (hlt : j < b.map.table.guardIndex)
    (hk : (b.map.table.entry i).served d = some k) (ho : (b.map.table.entry j).owns a = true) :
    ∃ k', (b.map.table.entry j).served d = some k' ∧ k'.bank = k.bank ∧ k'.offset a = k.offset a := by
  have hr : ((b.map.table.after as).find a).1.range = b.map.table.entry i := by
    rw [Table.range_of_find, hi, Table.entry_after]
  have hown : ((b.map.table.after as).find a).1.range.owns a = true := Table.range_owns_of_find
  have hfirst : (((b.map.table.after (as ++ [a])).find c).2.find a).1.index = j := by
    rw [← hj]
    refine Table.index_find_find ?_ ?_
    · rwa [hj, Table.guardIndex_after]
    · rwa [hj, Table.entry_after]
  obtain ⟨ops, answers, b', hops, hrun, ht, hslot⟩ := run_overtaking hb hs (c := c) (hr.symm ▸ hk)
  obtain ⟨k', hk', hsame⟩ := hstays ops answers b' hops hrun d .byte a k.bank (k.offset a) (by simp)
    (hslot ▸ Slot.translate_of_owns hown)
  refine ⟨k', ?_, hsame⟩
  change (b'.map.table.find a).1.range.served d = some k' at hk'
  rwa [ht, Table.range_of_find, hfirst, Table.entry_find, Table.entry_after] at hk'

/-- The slots agree with the list after every run of accesses exactly if the table is coherent. Where the
handler is told of an access in such a run, it may perform operations, and install coherent tables. -/
theorem consistent_iff_coherent {m₀ m : MemoryMap} {t : Table} (hinstall : m₀.install t = .ok m) (s : σ)
    (dispatch : Dispatch) (htold : ∀ ops, (∀ op ∈ ops, op.isAccess = true) → ∀ c r,
      Tells h limit ops ⟨m, s, dispatch⟩ c r → Changes Table.Coherent c.map (h.notify c.state r c.map).map) :
    StaysConsistent h limit ⟨m, s, dispatch⟩ ↔ t.Coherent := by
  constructor
  · intro hstays i j hli hlj ⟨e, hje, hie⟩ d a k hk hoi hoj
    have hsound : m.Sound := .install hinstall
    obtain ⟨-, rfl⟩ := MemoryMap.install_ok hinstall
    obtain ⟨as, c, hi, hj⟩ := Table.exists_overtaking hli hlj hje hie hoi
    exact hstays.served_alike hsound rfl hi hj hlj.1 hk hoj
  · intro ht ops answers b hops hrun
    have hstart : (⟨m, s, dispatch⟩ : Bus σ).map.Coherent := MemoryMap.coherent_of_install ht hinstall
    have hend : b.map.Coherent := holds_run (J := fun b => b.map.Coherent)
      (G := fun c r => c.map.Coherent → (h.notify c.state r c.map).map.Coherent)
      (Bus.lasts_serve MemoryMap.lasting_coherent) (fun a hb => hb.find a) (·.1.aligned) hstart
      (fun op hop hother => absurd (hops op hop) (by simp [hother]))
      (fun c r hc hm => (htold ops hops c r hc).keep MemoryMap.Coherent.change hm) hrun
    exact hend.consistent

/-- Two windows that share addresses, and the bytes behind them. One is remembered at a shared address, and then
a lookup moves the other one in front of it. -/
theorem consistent_iff_coherent_windows : ∃ (h : Handler Unit) (m₀ m : MemoryMap) (t : Table)
    (answers : List Reply) (b : Bus Unit), m₀.install t = .ok m ∧
      (∀ (c : Bus Unit) r, Changes Table.Coherent c.map (h.notify c.state r c.map).map) ∧
      t.Coherent ∧ ¬ t.Disjoint ∧ StaysConsistent h 0 ⟨m, (), .zero⟩ ∧
      run (Bus.port h 0) ⟨m, (), .zero⟩ [.readByte 0x0110, .find 0x0210] = .ok (answers, b) ∧
      b.map.tableStats.promotions = 1 ∧ b.map.slots.readByte.translate 0x0110 = some (0, 0) ∧
      b.map.Consistent := by
  obtain ⟨m₀, m, t, answers, b, hinstall, ht, hoverlap, hrun, hpromoted, hslot⟩ :
      ∃ m₀ m t answers b, MemoryMap.install m₀ t = .ok m ∧ t.Coherent ∧ ¬ t.Disjoint ∧
        run (Bus.port (.silent "none") 0) ⟨m, (), .zero⟩ [.readByte 0x0110, .find 0x0210] =
          .ok (answers, b) ∧
        b.map.tableStats.promotions = 1 ∧ b.map.slots.readByte.translate 0x0110 = some (0, 0) :=
    ⟨.ofBanks ⟨#[⟨"ram", ⟨#[7, 9]⟩⟩]⟩, _,
      ⟨.ofRanges [⟨0xFF00, 0x0100, .read, some ⟨0, 0, 1⟩, 0⟩, ⟨0x00FF, 0x0010, .read, some ⟨0, 0, 1⟩, 0⟩]
        .guard, .zero, Arena.valid_ofRanges rfl rfl rfl (by decide)⟩, _, _,
      rfl, Table.coherent_of_served (fun d => by cases d <;> decide),
      fun hdisjoint => absurd (hdisjoint 0 1 0x0110 (by decide) (by decide) rfl rfl) (by decide), rfl, rfl, rfl⟩
  have hsilent (c : Bus Unit) (r : Range) :
      Changes Table.Coherent c.map ((Handler.silent "none").notify c.state r c.map).map :=
    Handler.confined_silent "none" c.state r c.map
  have hstays : StaysConsistent (.silent "none") 0 ⟨m, (), .zero⟩ :=
    (consistent_iff_coherent hinstall () .zero fun _ _ c r _ => hsilent c r).mpr ht
  exact ⟨_, m₀, m, t, answers, b, hinstall, hsilent, ht, hoverlap, hstays, hrun, hpromoted, hslot,
    hstays _ answers b (by decide) hrun⟩

/-- Two ranges share an address. The first one is remembered there, and the second one is then found
there because a lookup elsewhere has moved it to the front. -/
theorem not_consistent_of_overlap : ¬ ∀ (rs : List Range) (guard : Range) (t : Table) (banks : Banks)
    (m : MemoryMap) (ops : List Operation) (answers : List Reply) (b : Bus Unit),
    Table.build rs guard = .ok t → (MemoryMap.ofBanks banks).install t = .ok m →
      (∀ op ∈ ops, op.isAccess = true) →
      run (Bus.port (.silent "none") 0) ⟨m, (), .zero⟩ ops = .ok (answers, b) → b.map.Consistent := by
  intro hall
  have hconsistent := hall
    [⟨0xFF00, 0x0100, .read, some ⟨0, 0, 1⟩, 0⟩, ⟨0x00FF, 0x0010, .read, some ⟨0, 2, 1⟩, 0⟩] .guard _
    ⟨#[⟨"ram", ⟨#[1, 2, 3, 4]⟩⟩]⟩ _ [.readByte 0x0110, .find 0x0210] _ _ rfl rfl (by decide) rfl
  obtain ⟨k, hk, -, hoffset⟩ := hconsistent .read .byte 0x0110 0 0 (by simp) rfl
  obtain rfl : (⟨0, 2, 1⟩ : Backing) = k := Option.some.inj hk
  exact absurd hoffset (by decide)

end Operation
end MemoryBus
