import MemoryBus.Proofs.Cells
import MemoryBus.Proofs.Wide

/-! Accesses change no byte outside the windows that are ready for writes, also where windows
overlap. -/
namespace MemoryBus

variable {σ : Type}

namespace Banks

/-- The same sizes, and the same bytes except in `W`. -/
structure AgreeOutside (W : Nat → Nat → Prop) (s s' : Banks) : Prop where
  sizes : s'.sizes = s.sizes
  byte? : ∀ bank offset, ¬ W bank offset → s'.byte? bank offset = s.byte? bank offset

namespace AgreeOutside

variable {W : Nat → Nat → Prop} {s s' s'' : Banks} {bank offset : Nat}

theorem refl (W : Nat → Nat → Prop) (s : Banks) : s.AgreeOutside W s := ⟨rfl, fun _ _ _ => rfl⟩

theorem of_eq (h : s' = s) : s.AgreeOutside W s' := h ▸ refl W s'

theorem trans (h : s.AgreeOutside W s') (h' : s'.AgreeOutside W s'') : s.AgreeOutside W s'' :=
  ⟨h'.sizes.trans h.sizes,
    fun bank offset hW => (h'.byte? bank offset hW).trans (h.byte? bank offset hW)⟩

theorem setByte (hr : s.Reaches .byte bank offset) (hW : W bank offset) (v : UInt8) :
    s.AgreeOutside W (s.setByte bank offset v) := by
  refine ⟨sizes_setByte v, fun bank' offset' hW' => ?_⟩
  rw [byte?_setByte hr, if_neg]
  rintro ⟨rfl, rfl⟩
  exact hW' hW

/-- A bank of which no byte is in `W` keeps its contents. -/
theorem bytes? (h : s.AgreeOutside W s') (hW : ∀ offset, ¬ W bank offset) :
    s'.bytes? bank = s.bytes? bank := by
  have hsize := congrArg (·[bank]?) h.sizes
  have hbyte := fun offset => h.byte? bank offset (hW offset)
  simp only [Banks.sizes, List.getElem?_map, Array.getElem?_toList] at hsize
  unfold Banks.byte? at hbyte
  unfold Banks.bytes?
  cases hk : s.toArray[bank]? with
  | none => simpa [hk] using hsize
  | some k =>
    obtain ⟨k', hk', -⟩ := Option.map_eq_some_iff.mp (hsize.trans (by rw [hk]; rfl))
    simp only [hk, hk'] at hbyte ⊢
    refine congrArg some (ByteArray.ext (Array.ext_getElem? fun offset => ?_))
    rw [← getElem?_data, ← getElem?_data, hbyte]

end AgreeOutside
end Banks

/-- The byte is one of a window that is ready for writes. -/
def Table.Writable (t : Table) (bank offset : Nat) : Prop :=
  ∃ r ∈ t.entries, r.access.has .write = true ∧ ∃ k, r.backing = some k ∧ k.bank = bank ∧
    k.base.toNat ≤ offset ∧ offset ≤ k.lastOffset

/-- What a window serves is inside it, a word at an even address with both its bytes. -/
theorem Table.writable_of_served {t : Table} {r : Range} {k : Backing} {w : Width} {a : UInt32}
    {offset : Nat} (hr : r ∈ t.entries) (hk : r.served .write = some k)
    (ha : w = .word → a &&& 1 = 0) (hlow : k.offset a ≤ offset)
    (hhigh : offset < k.offset a + w.bytes) : t.Writable k.bank offset := by
  have hbase : k.base.toNat ≤ k.offset a := Nat.le_add_right _ _
  refine ⟨r, hr, Range.ready_of_served hk, k, Range.backing_of_served hk, rfl,
    Nat.le_trans hbase hlow, ?_⟩
  cases w with
  | byte =>
    have hlast := k.offset_le_last a
    simp only [Width.bytes] at hhigh
    omega
  | word =>
    have hlast := Backing.offset_lt_last (k := k) (ha rfl)
    simp only [Width.bytes] at hhigh
    omega

namespace MemoryMap

/-- The entries, the slots and the banks are the same. -/
structure Kept (m m' : MemoryMap) : Prop where
  entries : m'.table.entries = m.table.entries
  slots : m'.slots = m.slots
  banks : m'.banks = m.banks

/-- The entries are those of `t`, and every slot was filled from one of them. -/
structure FilledOver (t : Table) (m : MemoryMap) : Prop where
  entries : m.table.entries = t.entries
  filled : ∀ d w, (m.slots.get d w).FilledFrom t d w

variable {t : Table} {m m' m'' : MemoryMap} {W : Nat → Nat → Prop} {bank offset : Nat}

theorem Kept.trans (h : m.Kept m') (h' : m'.Kept m'') : m.Kept m'' :=
  ⟨h'.entries.trans h.entries, h'.slots.trans h.slots, h'.banks.trans h.banks⟩

theorem FilledOver.of_kept (hm : m.FilledOver t) (h : m.Kept m') : m'.FilledOver t :=
  ⟨h.entries.trans hm.entries, fun d w => h.slots ▸ hm.filled d w⟩

theorem kept_find (m : MemoryMap) (a : UInt32) : m.Kept (m.find a).2 :=
  ⟨Table.entries_find, rfl, rfl⟩

theorem FilledOver.fill (hm : m.FilledOver t) {d : Direction} {w : Width} {a : UInt32} {k : Backing}
    (hk : (m.find a).1.range.served d = some k) (ha : w = .word → a &&& 1 = 0) :
    FilledOver t
      { (m.find a).2 with slots := (m.find a).2.slots.remember d w (m.find a).1.range k } := by
  have hentries := (hm.of_kept (m.kept_find a)).entries
  have hfilled := fun d w => (hm.filled d w).of_entries hm.entries.symm
  exact ⟨hentries, fun _ _ => (filled_remember hfilled hk ha).of_entries hentries⟩

theorem FilledOver.aligned (hm : m.FilledOver t) : m.Aligned :=
  aligned_of_filled fun d => (hm.filled d .word).of_entries hm.entries.symm

theorem Reachable.filledOver (hm : m.Reachable) : m.FilledOver m.table := ⟨rfl, hm.filled⟩

theorem agree_writeByte {v : UInt8} (hm : m.writeByte bank offset v = .ok m')
    (hW : W bank offset) : m.banks.AgreeOutside W m'.banks := by
  unfold writeByte at hm
  split at hm
  · rename_i hholds
    obtain rfl := Except.ok.inj hm
    exact .setByte (Banks.byte?_isSome.mp hholds) hW v
  · cases hm

theorem agree_writeWord {v : UInt16} (hm : m.writeWord bank offset v = .ok m')
    (hW : W bank offset) (hW' : W bank (offset + 1)) : m.banks.AgreeOutside W m'.banks := by
  simp only [writeWord, bind, Except.bind] at hm
  split at hm
  · cases hm
  · rename_i m₁ hm₁
    exact (agree_writeByte hm₁ hW).trans (agree_writeByte hm hW')

end MemoryMap

/-- The handler leaves the entries, the slots and the banks alone. -/
def Handler.Aloof (h : Handler σ) : Prop :=
  ∀ s r (m : MemoryMap), m.Kept (h.notify s r m).map

theorem Handler.aloof_silent (name : String) : (silent name : Handler σ).Aloof :=
  fun _ _ _ => ⟨rfl, rfl, rfl⟩

variable {h : Handler σ} {limit : Nat} {W : Nat → Nat → Prop} {t : Table} {b b' : Bus σ}

namespace Handler.Aloof

theorem passes (hh : h.Aloof) (m : MemoryMap) : h.Passes m.Kept where
  find a hm := hm.trans (MemoryMap.kept_find _ a)
  note _ hm := ⟨hm.entries, hm.slots, hm.banks⟩
  notify s r hm := hm.trans (hh s r _)

theorem carries (hh : h.Aloof) (t : Table) : h.Carries (MemoryMap.FilledOver t) where
  find a hm := hm.of_kept (MemoryMap.kept_find _ a)
  fill hm hk ha := hm.fill hk ha
  banks hm _ := ⟨hm.entries, hm.filled⟩
  note _ hm := ⟨hm.entries, hm.filled⟩
  notify s r hm := hm.of_kept (hh s r _)

end Handler.Aloof

namespace Bus

variable {q : Request} {qs : List Request} {v : UInt32} {bank offset : Nat}

/-- A transfer changes the bytes of a write only. -/
theorem agree_transfer (ht : b.transfer q bank offset = .ok (v, b'))
    (hW : q.direction = .write → ∀ i, offset ≤ i → i < offset + q.width.bytes → W bank i) :
    b.map.banks.AgreeOutside W b'.map.banks := by
  obtain ⟨address, value, direction, width⟩ := q
  cases direction with
  | read =>
    refine .of_eq ?_
    cases width <;> obtain ⟨_, -, hv⟩ := map_ok ht <;> exact congrArg (·.2.map.banks) hv.symm
  | write =>
    cases width with
    | byte =>
      obtain ⟨_, hput, hv⟩ := map_ok ht
      obtain ⟨-, rfl⟩ := Prod.mk.inj hv
      obtain ⟨_, hm, rfl⟩ := map_ok hput
      exact MemoryMap.agree_writeByte hm (hW rfl offset (by omega) (by simp [Width.bytes]))
    | word =>
      obtain ⟨_, hput, hv⟩ := map_ok ht
      obtain ⟨-, rfl⟩ := Prod.mk.inj hv
      obtain ⟨_, hm, rfl⟩ := map_ok hput
      exact MemoryMap.agree_writeWord hm (hW rfl offset (by omega) (by simp [Width.bytes]))
        (hW rfl (offset + 1) (by omega) (by simp [Width.bytes]))

theorem kept_resolve (hh : h.Aloof) {d : Direction} {a : UInt32} {s : Service}
    (hr : b.resolve h d a limit = .ok (s, b')) : b.map.Kept b'.map := by
  have hres : Settles _ (b.resolve h d a limit) :=
    settles_resolve_of_passes (hh.passes b.map) ⟨rfl, rfl, rfl⟩ d a
  rw [hr] at hres
  exact hres.1

/-- A part changes nothing but bytes of windows that are ready for writes. -/
theorem agree_serve (hh : h.Aloof) (hb : b.map.FilledOver t) (hq : q.Aligned)
    (hW : q.direction = .write → ∀ bank offset, t.Writable bank offset → W bank offset)
    (hs : b.serve h limit q = .ok (v, b')) : b.map.banks.AgreeOutside W b'.map.banks := by
  rcases serve_cases hs with ⟨bank, offset, hslot, ht⟩ | ⟨-, hmiss⟩
  · obtain ⟨i, -, k, hk, -, heven, hp⟩ := (hb.filled q.direction q.width).translate hslot
    obtain ⟨rfl, rfl⟩ := Prod.mk.inj hp
    refine agree_transfer ht fun hwrite i hlow hhigh => hW hwrite _ _ ?_
    exact Table.writable_of_served (Table.mem_entries_of_served hk) (hwrite ▸ hk) heven hlow hhigh
  · rcases hmiss with ⟨r, k, b₁, hr, ht⟩ | ⟨r, b₁, hr, hcall⟩ | ⟨hr, -⟩
    · have hkept := kept_resolve hh hr
      obtain ⟨hmem, -, hk⟩ := resolve_memory hr
      rw [(hb.of_kept hkept).entries] at hmem
      refine (Banks.AgreeOutside.of_eq hkept.banks).trans
        (agree_transfer (b := b₁.remember q.direction q.width r k) ht fun hwrite i hlow hhigh => ?_)
      exact hW hwrite _ _ (Table.writable_of_served hmem (hwrite ▸ hk) hq hlow hhigh)
    · obtain rfl : (b₁.callDevice h r q).2 = b' := congrArg Prod.snd hcall
      have hkept : b.map.Kept (b₁.callDevice h r q).2.map :=
        callDevice_map (hh.passes b.map).note (kept_resolve hh hr) r q
      exact .of_eq hkept.banks
    · exact .of_eq (kept_resolve hh hr).banks

theorem agree_serveAll (hh : h.Aloof) (hb : b.map.FilledOver t)
    (hqs : ∀ q ∈ qs, q.Aligned ∧
      (q.direction = .write → ∀ bank offset, t.Writable bank offset → W bank offset))
    (hs : b.serveAll h limit qs = .ok b') : b.map.banks.AgreeOutside W b'.map.banks := by
  induction qs generalizing b with
  | nil => exact .of_eq (congrArg (·.map.banks) (Except.ok.inj hs).symm)
  | cons q qs ih =>
    simp only [serveAll, bind, Except.bind] at hs
    split at hs
    · cases hs
    · rename_i result hserve
      obtain ⟨haligned, hW⟩ := hqs q (by simp)
      have hb₁ := carries_serve (hh.carries t) hb haligned hserve
      exact (agree_serve hh hb haligned hW hserve).trans
        (ih hb₁ (fun q hq => hqs q (by simp [hq])) hs)

end Bus

namespace Operation

variable {op : Operation} {ops : List Operation} {answer : Reply} {answers : List Reply}

theorem agree_perform (hh : h.Aloof) (hb : b.map.FilledOver t) (hop : op.isAccess = true)
    (hW : op.bytes ≠ [] → ∀ bank offset, t.Writable bank offset → W bank offset)
    (hperform : op.perform (Bus.port h limit) b = .ok (answer, b')) :
    b'.map.FilledOver t ∧ b.map.banks.AgreeOutside W b'.map.banks := by
  obtain ⟨a, rfl⟩ | hparts := parts_ne_nil hop
  · obtain rfl : (b.find a).2 = b' := congrArg Prod.snd (Except.ok.inj hperform)
    exact ⟨hb.of_kept (b.map.kept_find a), .refl W _⟩
  · have hall : (op.perform (Bus.port h limit) b).map (·.2) = _ :=
      perform_parts (hh.carries t) MemoryMap.FilledOver.aligned hb hparts
    rw [hperform] at hall
    refine ⟨Bus.carries_serveAll (hh.carries t) hb op.aligned_parts hall.symm, ?_⟩
    refine Bus.agree_serveAll hh hb (fun q hq => ⟨op.aligned_parts q hq, fun hwrite => ?_⟩) hall.symm
    refine hW fun hnil => ?_
    exact absurd (hwrite.symm.trans (direction_parts_of_nil hnil q hq)) (by simp)

theorem agree_run (hh : h.Aloof) (hb : b.map.FilledOver t)
    (hops : ∀ op ∈ ops, op.isAccess = true ∧
      (op.bytes ≠ [] → ∀ bank offset, t.Writable bank offset → W bank offset))
    (hrun : run (Bus.port h limit) b ops = .ok (answers, b')) :
    b.map.banks.AgreeOutside W b'.map.banks := by
  induction ops generalizing b answers with
  | nil => exact .of_eq (congrArg (·.2.map.banks) (Except.ok.inj hrun).symm)
  | cons op ops ih =>
    obtain ⟨answer, b₁, rest, hop, hrest, -⟩ := run_cons hrun
    obtain ⟨haccess, hW⟩ := hops op (by simp)
    obtain ⟨hb₁, hagree⟩ := agree_perform hh hb haccess hW hop
    exact hagree.trans (ih hb₁ (fun op hop => hops op (by simp [hop])) hrest)

/-- With a handler that leaves the map alone, a run of accesses and lookups changes a byte only if a
window that is ready for writes has it. Banks of which no such window has a byte keep their contents,
and where nothing is written all banks do. -/
theorem writes_stay_in_windows (hh : h.Aloof) (hb : b.map.Reachable)
    (hops : ∀ op ∈ ops, op.isAccess = true)
    (hrun : run (Bus.port h limit) b ops = .ok (answers, b')) :
    (∀ bank offset, b'.map.banks.byte? bank offset ≠ b.map.banks.byte? bank offset →
        ∃ r ∈ b.map.table.entries, r.access.has .write = true ∧
          ∃ k, r.backing = some k ∧ k.bank = bank ∧ k.base.toNat ≤ offset ∧
            offset ≤ k.base.toNat + k.mask.toNat + if k.mask &&& 1 = 0 then 1 else 0) ∧
      (∀ bank, (∀ r ∈ b.map.table.entries, r.access.has .write = true →
          ∀ k, r.backing = some k → k.bank ≠ bank) →
        b'.map.banks.bytes? bank = b.map.banks.bytes? bank) ∧
      ((∀ op ∈ ops, op.bytes = []) →
        ∀ bank, b'.map.banks.bytes? bank = b.map.banks.bytes? bank) := by
  have hagree : b.map.banks.AgreeOutside b.map.table.Writable b'.map.banks :=
    agree_run hh hb.filledOver (fun op hop => ⟨hops op hop, fun _ _ _ hW => hW⟩) hrun
  refine ⟨fun bank offset hne => ?_, fun bank hbank => ?_, fun hreads bank => ?_⟩
  · exact by_contra fun hW => hne (hagree.byte? bank offset hW)
  · refine hagree.bytes? fun offset hW => ?_
    obtain ⟨r, hr, hready, k, hk, hsame, -⟩ := hW
    exact hbank r hr hready k hk hsame
  · have hsame : b.map.banks.AgreeOutside (fun _ _ => False) b'.map.banks :=
      agree_run hh hb.filledOver (fun op hop => ⟨hops op hop, absurd (hreads op hop)⟩) hrun
    exact hsame.bytes? fun _ => not_false

/-- A writable window and a read-only one that share addresses, in both orders of the list. -/
theorem writes_stay_in_windows_overlap : ∃ (h : Handler Unit) (ops : List Operation)
    (answers : List Reply) (b b' : Bus Unit), h.Aloof ∧ b.map.Reachable ∧
      (∀ op ∈ ops, op.isAccess = true) ∧ run (Bus.port h 1) b ops = .ok (answers, b') ∧
      b'.map.banks.bytes? 1 = b.map.banks.bytes? 1 := by
  let ops : List Operation :=
    [.writeByte 0x0101 8, .find 0x0200, .writeByte 0x0101 9, .writeWord 0x0101 7, .readLong 0x0102]
  have hh : (Handler.silent "silent" : Handler Unit).Aloof := Handler.aloof_silent _
  obtain ⟨banks, t, answers, b, b', hinstall, hrun, hwindows⟩ : ∃ (banks : Banks) (t : Table)
      (answers : List Reply) (b b' : Bus Unit),
        run (Bus.port (.silent "silent") 1) (Bus.attach (.silent "silent") (.ofBanks banks) ())
          [.install t] = .ok ([.done], b) ∧
        run (Bus.port (.silent "silent") 1) b ops = .ok (answers, b') ∧
        ∀ r ∈ b.map.table.entries, r.access.has .write = true →
          ∀ k, r.backing = some k → k.bank ≠ 1 := by
    refine ⟨⟨#[⟨"ram", ⟨#[1, 2]⟩⟩, ⟨"rom", ⟨#[3, 4]⟩⟩]⟩,
      ⟨.ofRanges [⟨0xFF00, 0x0100, .union .read .write, some ⟨0, 0, 1⟩, 0⟩,
        ⟨0xF000, 0x0000, .read, some ⟨1, 0, 1⟩, 0⟩] .guard, .zero,
          Arena.valid_ofRanges rfl rfl rfl (by decide)⟩, _, _, _, rfl, rfl, by decide⟩
  have hb : b.map.Reachable := reachable_run (Handler.confined_silent _).free
    ((MemoryMap.Reachable.ofBanks banks).change (.note _ (.attached "silent"))) hinstall
  have hops : ∀ op ∈ ops, op.isAccess = true := by decide
  obtain ⟨-, hbank, -⟩ := writes_stay_in_windows hh hb hops hrun
  exact ⟨_, ops, answers, b, b', hh, hb, hops, hrun, hbank 1 hwindows⟩

end Operation
end MemoryBus
