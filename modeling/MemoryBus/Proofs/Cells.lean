import MemoryBus.Proofs.Bytes
import MemoryBus.Proofs.Disjoint
import MemoryBus.Proofs.Parts

/-! What accesses read and write where the handler takes no part: a bank serves them, or a device, or
nothing. -/
namespace MemoryBus

variable {σ : Type}

namespace Table

/-- No entry notifies the handler. -/
def Quiet (t : Table) : Prop := ∀ r ∈ t.entries, r.access.has .notify = false

/-- No entry asks a device or notifies the handler. -/
def Plain (t : Table) : Prop :=
  ∀ r ∈ t.entries, r.access.has .device = false ∧ r.access.has .notify = false

/-- The place of the byte at `a`, if the range that owns `a` is ready. -/
def cell? (t : Table) (d : Direction) (a : UInt32) : Option (Nat × Nat) :=
  ((t.entries.find? (·.owns a)).bind (·.served d)).map fun k => (k.bank, k.offset a)

/-- The range that has a device serve `q`: the one that owns the address, if it is not ready for this
direction and has a device. -/
def device? (t : Table) (q : Request) : Option Range :=
  (t.entries.find? (·.owns q.address)).filter fun r =>
    !r.access.has q.direction.ready && r.access.has .device

variable {t u : Table} {d : Direction} {a : UInt32} {i : Nat} {k : Backing} {q : Request}

theorem Plain.quiet (ht : t.Plain) : t.Quiet := fun r hr => (ht r hr).2

theorem Plain.device?_eq (ht : t.Plain) (q : Request) : t.device? q = none := by
  refine Option.filter_eq_none_iff.mpr fun r hr => ?_
  simp [(ht r (List.mem_of_find?_eq_some hr)).1]

theorem guardIndex_lt (t : Table) : t.guardIndex < t.entries.length := by
  have hlt := t.valid.threaded_recency.guardIndex_lt
  rwa [Arena.size_eq] at hlt

theorem getElem?_index_find : t.entries[(t.find a).1.index]? = some (t.find a).1.range := by
  have hlt : (t.find a).1.index < t.entries.length :=
    Nat.lt_of_le_of_lt index_find_le t.guardIndex_lt
  rw [range_of_find, entry_eq, List.getElem?_eq_getElem hlt, Option.getD_some]

theorem range_find_mem : (t.find a).1.range ∈ t.entries := List.mem_of_getElem? getElem?_index_find

/-- Where ranges share no address, a lookup finds what is first in the order of building. -/
theorem Disjoint.find?_owns (ht : t.Disjoint) (a : UInt32) :
    t.entries.find? (·.owns a) = some (t.find a).1.range := by
  obtain ⟨hlt, hentry⟩ := List.getElem?_eq_some_iff.mp (getElem?_index_find (t := t) (a := a))
  refine List.find?_eq_some_iff_getElem.mpr ⟨range_owns_of_find, _, hlt, hentry, ?_⟩
  intro j hj
  have hguard : j < t.guardIndex := Nat.lt_of_lt_of_le hj index_find_le
  have hj' : t.entry j = t.entries[j] := by
    rw [entry_eq, List.getElem?_eq_getElem (Nat.lt_trans hj hlt), Option.getD_some]
  by_contra howns
  have hsame := ht.index_find (a := a) hguard (by simpa [hj'] using howns)
  omega

theorem Disjoint.cell?_eq (ht : t.Disjoint) (d : Direction) (a : UInt32) : t.cell? d a =
    ((t.find a).1.range.served d).map fun k => (k.bank, k.offset a) := by
  rw [cell?, ht.find?_owns, Option.bind_some]

/-- A range that is ready is backed. -/
theorem served_find_eq_none : (t.find a).1.range.served d = none ↔
    (t.find a).1.range.access.has d.ready = false := by
  rw [range_of_find]
  constructor
  · intro hnone
    by_contra hready
    have hready := Bool.eq_true_of_not_eq_false hready
    have hbacked : (t.entry (t.find a).1.index).backing.isSome = true :=
      t.valid.backed _ (Range.isCacheable_of_ready hready)
    rw [Range.served, if_pos hready] at hnone
    simp [hnone] at hbacked
  · intro hready
    rw [Range.served, if_neg (by simp [hready])]

theorem Disjoint.device?_eq_some (ht : t.Disjoint) {r : Range} : t.device? q = some r ↔
    r = (t.find q.address).1.range ∧ r.served q.direction = none ∧ r.access.has .device = true := by
  rw [device?, ht.find?_owns, Option.filter_eq_some_iff, Option.some.injEq, eq_comm]
  refine and_congr_right fun hr => ?_
  subst hr
  rw [served_find_eq_none, Bool.and_eq_true, Bool.not_eq_true']

/-- What a bank serves is not asked of a device. -/
theorem Disjoint.device?_eq_none (ht : t.Disjoint) {place : Nat × Nat}
    (hc : t.cell? q.direction q.address = some place) : t.device? q = none := by
  rw [ht.cell?_eq] at hc
  obtain ⟨k, hk, -⟩ := Option.map_eq_some_iff.mp hc
  refine Option.eq_none_iff_forall_ne_some.mpr fun r hr => ?_
  obtain ⟨rfl, hnone, -⟩ := ht.device?_eq_some.mp hr
  exact absurd (hnone.symm.trans hk) (by simp)

theorem cell?_of_entries (h : t.entries = u.entries) : t.cell? d a = u.cell? d a := by
  rw [cell?, cell?, h]

theorem device?_of_entries (h : t.entries = u.entries) : t.device? q = u.device? q := by
  rw [device?, device?, h]

theorem Disjoint.cell?_of_served (ht : t.Disjoint) (hk : (t.entry i).served d = some k)
    (ho : (t.entry i).owns a = true) : t.cell? d a = some (k.bank, k.offset a) := by
  rw [ht.cell?_eq, range_of_find, ht.index_find (lt_guardIndex_of_served hk) ho, hk, Option.map_some]

/-- The byte at an address is where the one range keeps it that owns the address, if that range is
ready. -/
theorem Disjoint.cell?_eq_some (ht : t.Disjoint) {bank offset : Nat} :
    t.cell? d a = some (bank, offset) ↔ ∃ i < t.guardIndex, (t.entry i).owns a = true ∧
      (t.entry i).access.has d.ready = true ∧ ∃ k, (t.entry i).backing = some k ∧
        bank = k.bank ∧ offset = k.base.toNat + (a &&& k.mask).toNat := by
  constructor
  · intro hcell
    rw [ht.cell?_eq, range_of_find] at hcell
    obtain ⟨k, hk, hplace⟩ := Option.map_eq_some_iff.mp hcell
    obtain ⟨hbank, hoffset⟩ := Prod.mk.inj hplace
    exact ⟨_, lt_guardIndex_of_served hk, owns_of_find, Range.ready_of_served hk, k,
      Range.backing_of_served hk, hbank.symm, hoffset.symm⟩
  · rintro ⟨i, -, ho, hready, k, hk, rfl, rfl⟩
    exact ht.cell?_of_served (by rw [Range.served, if_pos hready, hk]) ho

end Table

/-- The places of as many bytes as the width takes. -/
def Width.cells (c : Option (Nat × Nat)) : Width → List (Option (Nat × Nat))
  | .byte => [c]
  | .word => [c, c.map fun (bank, offset) => (bank, offset + 1)]

theorem Width.eq_none_of_mem_cells {w : Width} {c : Option (Nat × Nat)} (hc : c ∈ w.cells none) :
    c = none := by
  cases w with
  | byte => exact List.mem_singleton.mp hc
  | word =>
    simpa only [cells, Option.map_none, List.mem_cons, List.not_mem_nil, or_false, or_self] using hc

theorem Width.has_cells {w : Width} {banks : Banks} {bank offset : Nat}
    (hr : banks.Reaches w bank offset) : ∀ c ∈ w.cells (some (bank, offset)), banks.Has c := by
  have hhas {offset : Nat} (hr : banks.Reaches .byte bank offset) : banks.Has (some (bank, offset)) := by
    rintro bank offset ⟨⟩
    exact hr
  intro c hc
  cases w with
  | byte =>
    obtain rfl := List.mem_singleton.mp hc
    exact hhas hr
  | word =>
    obtain rfl | rfl : c = some (bank, offset) ∨ c = some (bank, offset + 1) := by simpa [cells] using hc
    · exact hhas hr.byte_of_word.1
    · exact hhas hr.byte_of_word.2

namespace Request

/-- The places of the bytes of a part. -/
def cells (t : Table) (q : Request) : List (Option (Nat × Nat)) :=
  q.width.cells (t.cell? q.direction q.address)

/-- The bytes that a part writes. -/
def bytes (q : Request) : List UInt8 :=
  match q.direction, q.width with
  | .read, _ => []
  | .write, .byte => [q.value.toUInt8]
  | .write, .word => [BigEndian.wordHigh q.value.toUInt16, BigEndian.wordLow q.value.toUInt16]

/-- What a part answers when `bytes` are in its places. -/
def answer (bytes : List UInt8) (q : Request) : UInt32 :=
  match q.direction with
  | .read => .ofNat (BigEndian.number bytes)
  | .write => 0

theorem answer_none (s : Banks) (q : Request) : q.answer ((q.width.cells none).map s.byteAt) = 0 := by
  unfold answer
  cases q.direction with
  | read => cases q.width <;> simp [Width.cells, Banks.byteAt, BigEndian.number]
  | write => rfl

theorem direction_readWord (a : UInt32) : ∀ q ∈ readWord a, q.direction = .read := by
  unfold readWord
  split <;> simp [read]

theorem direction_writeWord (a : UInt32) (v : UInt16) : ∀ q ∈ writeWord a v, q.direction = .write := by
  unfold writeWord
  split <;> simp [write]

theorem bytes_writeWord (a : UInt32) (v : UInt16) :
    (writeWord a v).flatMap (·.bytes) = BigEndian.digits 2 v.toNat := by
  rw [BigEndian.digits_word]
  unfold writeWord
  split <;> simp [bytes, write]

theorem length_bytes {q : Request} (hq : q.direction = .write) (t : Table) :
    (q.cells t).length = q.bytes.length := by
  cases hw : q.width <;> simp [cells, bytes, Width.cells, hq, hw]

end Request

namespace Operation

/-- The places of the bytes of an access, the highest first. -/
def cells (t : Table) (op : Operation) : List (Option (Nat × Nat)) := op.parts.flatMap (·.cells t)

/-- The bytes that a write stores, the highest first. -/
def bytes : Operation → List UInt8
  | writeByte _ v => BigEndian.digits 1 v.toNat
  | writeWord _ v => BigEndian.digits 2 v.toNat
  | writeLong _ v => BigEndian.digits 4 v.toNat
  | _ => []

/-- The read of what a write has written. -/
def readBack : Operation → Operation
  | writeByte a _ => readByte a
  | writeWord a _ => readWord a
  | writeLong a _ => readLong a
  | op => op

/-- What reading the written value answers. -/
def written : Operation → Reply
  | writeByte _ v => .byte v
  | writeWord _ v => .word v
  | writeLong _ v => .long v
  | _ => .done

/-- What an access answers when `bytes` are in its places. -/
def answer (bytes : List UInt8) : Operation → Reply
  | readByte _ => .byte (.ofNat (BigEndian.number bytes))
  | readWord _ => .word (.ofNat (BigEndian.number bytes))
  | readLong _ => .long (.ofNat (BigEndian.number bytes))
  | _ => .done

variable {op : Operation}

theorem direction_parts (hop : op.bytes ≠ []) : ∀ q ∈ op.parts, q.direction = .write := by
  cases op with
  | writeByte a v => simp [parts, Request.write]
  | writeWord a v => exact Request.direction_writeWord a v
  | writeLong a v =>
    exact List.forall_mem_append.mpr
      ⟨Request.direction_writeWord a _, Request.direction_writeWord (a + 2) _⟩
  | _ => exact absurd rfl hop

/-- An access that stores nothing only reads. -/
theorem direction_parts_of_nil (hop : op.bytes = []) : ∀ q ∈ op.parts, q.direction = .read := by
  cases op with
  | readByte a => simp [parts, Request.read]
  | readWord a => exact Request.direction_readWord a
  | readLong a =>
    exact List.forall_mem_append.mpr
      ⟨Request.direction_readWord a, Request.direction_readWord (a + 2)⟩
  | writeByte a v => simp [bytes, BigEndian.digits] at hop
  | writeWord a v => simp [bytes, BigEndian.digits] at hop
  | writeLong a v => simp [bytes, BigEndian.digits] at hop
  | _ => simp [parts]

theorem bytes_parts (hop : op.bytes ≠ []) : op.parts.flatMap (·.bytes) = op.bytes := by
  cases op with
  | writeByte a v => simp [parts, Request.write, Request.bytes, bytes, BigEndian.digits]
  | writeWord a v => exact Request.bytes_writeWord a v
  | writeLong a v =>
    simp only [parts, List.flatMap_append, Request.bytes_writeWord, BigEndian.digits_word]
    exact (BigEndian.digits_long v).symm
  | _ => exact absurd rfl hop

theorem length_cells (hop : op.bytes ≠ []) (t : Table) : (op.cells t).length = op.bytes.length := by
  rw [← bytes_parts hop, cells, List.length_flatMap, List.length_flatMap]
  exact congrArg List.sum
    (List.map_congr_left fun q hq => Request.length_bytes (direction_parts hop q hq) t)

theorem parts_readBack (hop : op.bytes ≠ []) : op.readBack.parts ≠ [] := by
  cases op with
  | writeByte a v => simp [readBack, parts]
  | writeWord a v => simp [readBack, parts]
  | writeLong a v => simp [readBack, parts]
  | _ => exact absurd rfl hop

theorem reply_of_bytes (hop : op.bytes ≠ []) (vs : List UInt32) : op.reply vs = .done := by
  cases op with
  | writeByte a v => rfl
  | writeWord a v => rfl
  | writeLong a v => rfl
  | _ => exact absurd rfl hop

theorem answer_readBack (hop : op.bytes ≠ []) :
    op.readBack.answer op.bytes = op.written := by
  cases op with
  | writeByte a v => simp [readBack, answer, bytes, written, BigEndian.number_digits]
  | writeWord a v => simp [readBack, answer, bytes, written, BigEndian.number_digits]
  | writeLong a v => simp [readBack, answer, bytes, written, BigEndian.number_digits]
  | _ => exact absurd rfl hop

end Operation

namespace MemoryMap

/-- A sound map whose table has the entries of `t`. -/
structure Over (t : Table) (m : MemoryMap) : Prop where
  sound : m.Sound
  entries : m.table.entries = t.entries

variable {t : Table} {m m' : MemoryMap} {a : UInt32}

theorem Over.of_same (hm : m.Over t) (ht : m'.table.entries = m.table.entries)
    (hs : m'.slots = m.slots) (hb : m.banks.sizes <+: m'.banks.sizes) : m'.Over t :=
  ⟨hm.sound.of_same ht hs hb, ht.trans hm.entries⟩

theorem Over.find (hm : m.Over t) (a : UInt32) : (m.find a).2.Over t :=
  hm.of_same Table.entries_find rfl List.prefix_rfl

/-- What a slot translates is the place of the byte. -/
theorem Over.cell?_of_slot (hm : m.Over t) (ht : t.Disjoint) {d : Direction} {w : Width}
    {bank offset : Nat} (hslot : (m.slots.get d w).translate a = some (bank, offset)) :
    t.cell? d a = some (bank, offset) := by
  obtain ⟨i, -, k, hk, ho, -, hp⟩ := (hm.sound.filled d w).translate hslot
  rw [← Table.cell?_of_entries hm.entries, hp]
  exact (ht.of_entries hm.entries.symm).cell?_of_served hk ho

theorem Over.cell?_eq (hm : m.Over t) (ht : t.Disjoint) (d : Direction) (a : UInt32) : t.cell? d a =
    ((m.find a).1.range.served d).map fun k => (k.bank, k.offset a) := by
  rw [← Table.cell?_of_entries hm.entries]
  exact (ht.of_entries hm.entries.symm).cell?_eq d a

theorem Over.device?_eq_some (hm : m.Over t) (ht : t.Disjoint) {q : Request} {r : Range} :
    t.device? q = some r ↔ r = (m.find q.address).1.range ∧ r.served q.direction = none ∧
      r.access.has .device = true := by
  rw [← Table.device?_of_entries hm.entries]
  exact (ht.of_entries hm.entries.symm).device?_eq_some

theorem Over.has_cells (hm : m.Over t) (ht : t.Disjoint) {q : Request} (hq : q.Aligned) :
    ∀ c ∈ q.cells t, m.banks.Has c := by
  intro c hc
  rw [Request.cells, hm.cell?_eq ht] at hc
  cases hk : (m.find q.address).1.range.served q.direction with
  | none =>
    rw [hk] at hc
    obtain rfl := Width.eq_none_of_mem_cells hc
    rintro bank offset ⟨⟩
  | some k =>
    rw [hk] at hc
    exact Width.has_cells ((hm.find q.address).sound.reaches_find hk hq) c hc

end MemoryMap

namespace Bus

/-- An access that succeeds with `v`, and leaves the banks `s` and a map over `t`. -/
def Yields {α : Type} (t : Table) (v : α) (s : Banks) (x : Except Fault (α × Bus σ)) : Prop :=
  ∃ b', x = .ok (v, b') ∧ b'.map.Over t ∧ b'.map.banks = s

variable {h : Handler σ} {limit : Nat} {t : Table} {b b' : Bus σ} {a : UInt32} {d : Direction}
  {q : Request} {qs : List Request}

/-- What a lookup may change of a map over `t`: not the banks, nor the state of the handler. -/
structure Untouched (t : Table) (b b' : Bus σ) : Prop where
  table : b'.map.Over t
  banks : b'.map.banks = b.map.banks
  state : b'.state = b.state

/-- Where no entry notifies the handler, one lookup decides. -/
theorem resolve_quiet (h : Handler σ) (limit : Nat) (hn : t.Quiet) (hb : b.map.Over t) (d : Direction)
    (a : UInt32) : ∃ r b₁, r = (b.map.find a).1.range ∧ b₁ = { b with map := (b.map.find a).2 } ∧
      ((∃ k, r.served d = some k ∧ b.resolve h d a limit = .ok (.memory r k, b₁)) ∨
        r.served d = none ∧ r.access.has .device = true ∧
          b.resolve h d a limit = .ok (.device r, b₁.countDevice) ∨
        r.served d = none ∧ r.access.has .device = false ∧
          b.resolve h d a limit = .ok (.failed, (b₁.note (.unmapped d a)).countFailed)) := by
  have hmem : (b.map.find a).1.range ∈ t.entries := hb.entries ▸ Table.range_find_mem
  refine ⟨_, _, rfl, rfl, ?_⟩
  unfold resolve
  rw [find_eq]
  cases hk : (b.map.find a).1.range.served d with
  | some k => exact .inl ⟨k, rfl, rfl⟩
  | none =>
    cases hdev : (b.map.find a).1.range.access.has .device with
    | true => exact .inr (.inl ⟨rfl, rfl, if_pos rfl⟩)
    | false => exact .inr (.inr ⟨rfl, rfl, by simp [hn _ hmem]⟩)

/-- So a part is a transfer at its place, or a call of its device, or nothing. -/
theorem serve_quiet (h : Handler σ) (limit : Nat) (ht : t.Disjoint) (hn : t.Quiet)
    (hb : b.map.Over t) (hq : q.Aligned) :
    (∃ bank offset b₁, t.cell? q.direction q.address = some (bank, offset) ∧ Untouched t b b₁ ∧
        b₁.map.banks.Reaches q.width bank offset ∧
        b.serve h limit q = b₁.transfer q bank offset) ∨
      (∃ r b₁, t.device? q = some r ∧ t.cell? q.direction q.address = none ∧ Untouched t b b₁ ∧
        b.serve h limit q = .ok (b₁.callDevice h r q)) ∨
      ∃ b₁, t.device? q = none ∧ t.cell? q.direction q.address = none ∧ Untouched t b b₁ ∧
        b.serve h limit q = .ok (0, b₁) := by
  unfold serve
  split
  · rename_i bank offset hslot
    exact .inl ⟨bank, offset, b, hb.cell?_of_slot ht hslot, ⟨hb, rfl, rfl⟩,
      hb.sound.reaches_slot hslot, rfl⟩
  · have hcell := hb.cell?_eq ht q.direction q.address
    have hfind := hb.find q.address
    obtain ⟨r, b₁, rfl, rfl, ⟨k, hk, hr⟩ | ⟨hk, hdev, hr⟩ | ⟨hk, hdev, hr⟩⟩ :=
      resolve_quiet h limit hn hb q.direction q.address
    · have hfill : MemoryMap.Sound _ := hb.sound.fill hk hq
      rw [hk] at hcell
      rw [hr]
      refine .inl ⟨k.bank, k.offset q.address, _, hcell, ?_, ?_, rfl⟩
      · exact ⟨⟨hfill, hfind.entries⟩, rfl, rfl⟩
      · exact hfind.sound.reaches_find hk hq
    · have hdevice := (hb.device?_eq_some ht).mpr ⟨rfl, hk, hdev⟩
      rw [hk] at hcell
      rw [hr]
      refine .inr (.inl ⟨_, _, hdevice, hcell, ?_, rfl⟩)
      exact ⟨hfind, rfl, rfl⟩
    · have hdevice : t.device? q = none := by
        refine Option.eq_none_iff_forall_ne_some.mpr fun r hr => ?_
        obtain ⟨rfl, -, hyes⟩ := (hb.device?_eq_some ht).mp hr
        exact absurd (hdev.symm.trans hyes) (by simp)
      rw [hk] at hcell
      rw [hr]
      refine .inr (.inr ⟨_, hdevice, hcell, ?_, rfl⟩)
      exact ⟨hfind.of_same rfl rfl List.prefix_rfl, rfl, rfl⟩

theorem transfer_cells {bank offset : Nat} (hr : b.map.banks.Reaches q.width bank offset) :
    b.transfer q bank offset =
      .ok (q.answer ((q.width.cells (some (bank, offset))).map b.map.banks.byteAt),
        { b with map := { b.map with
          banks := b.map.banks.store ((q.width.cells (some (bank, offset))).zip q.bytes) } }) := by
  obtain ⟨address, value, direction, width⟩ := q
  cases direction with
  | read =>
    cases width with
    | byte =>
      have hbyte (v : UInt8) : v.toUInt32 = UInt32.ofNat (BigEndian.number [v]) := by
        simp [BigEndian.number]
      simp only [transfer, Banks.readByte_eq hr, Except.map, hbyte]
      rfl
    | word =>
      have hword (v u : UInt8) :
          (BigEndian.word v u).toUInt32 = UInt32.ofNat (BigEndian.number [v, u]) := by
        simp [← BigEndian.toNat_word]
      simp only [transfer, Banks.readWord_eq hr, Except.map, hword]
      rfl
  | write =>
    cases width with
    | byte =>
      simp only [transfer, putByte_ok hr]
      rfl
    | word =>
      simp only [transfer, putWord_ok hr]
      rfl

/-- No part leaves the entries, or the banks. -/
theorem over_serve {v : UInt32} (ht : t.Disjoint) (hn : t.Quiet) (hb : b.map.Over t) (hq : q.Aligned)
    (hs : b.serve h limit q = .ok (v, b')) : b'.map.Over t := by
  rcases serve_quiet h limit ht hn hb hq with
    ⟨bank, offset, b₁, -, hb₁, -, hserve⟩ | ⟨r, b₁, -, -, hb₁, hserve⟩ | ⟨b₁, -, -, hb₁, hserve⟩
  · obtain ⟨banks, hshape, rfl⟩ := transfer_banks (hserve.symm.trans hs)
    exact hb₁.table.of_same rfl rfl (Banks.sizes_of_shape hshape ▸ List.prefix_rfl)
  · obtain rfl : (b₁.callDevice h r q).2 = b' :=
      congrArg Prod.snd (Except.ok.inj (hserve.symm.trans hs))
    exact callDevice_map (fun _ hm => hm.of_same rfl rfl List.prefix_rfl) hb₁.table r q
  · obtain ⟨-, rfl⟩ := Prod.mk.inj (Except.ok.inj (hserve.symm.trans hs))
    exact hb₁.table

variable (h limit)

/-- A part of an access reads and writes the bytes in its places. -/
theorem serve_cells (ht : t.Disjoint) (hp : t.Plain) (hb : b.map.Over t) (hq : q.Aligned) :
    Yields t (q.answer ((q.cells t).map b.map.banks.byteAt))
      (b.map.banks.store ((q.cells t).zip q.bytes)) (b.serve h limit q) := by
  unfold Request.cells
  rcases serve_quiet h limit ht hp.quiet hb hq with
    ⟨bank, offset, b₁, hcell, hb₁, hreach, hserve⟩ | ⟨r, -, hdevice, -⟩ |
    ⟨b₁, -, hcell, hb₁, hserve⟩
  · rw [hcell, hserve, transfer_cells hreach, hb₁.banks]
    exact ⟨_, rfl, hb₁.table.of_same rfl rfl (by simp [hb₁.banks]), rfl⟩
  · exact absurd ((hp.device?_eq q).symm.trans hdevice) (by simp)
  · rw [hcell, hserve, Request.answer_none]
    refine ⟨b₁, rfl, hb₁.table, hb₁.banks.trans (Banks.store_of_none ?_).symm⟩
    exact fun x hx => Width.eq_none_of_mem_cells (List.of_mem_zip hx).1

theorem serveAll_cells (ht : t.Disjoint) (hp : t.Plain) (hb : b.map.Over t)
    (hqs : ∀ q ∈ qs, q.Aligned ∧ q.direction = .write) :
    ∃ b', b.serveAll h limit qs = .ok b' ∧ b'.map.Over t ∧
      b'.map.banks = b.map.banks.store ((qs.flatMap (·.cells t)).zip (qs.flatMap (·.bytes))) := by
  induction qs generalizing b with
  | nil => exact ⟨b, rfl, hb, rfl⟩
  | cons q qs ih =>
    obtain ⟨haligned, hwrite⟩ := hqs q (by simp)
    obtain ⟨b₁, hserve, hb₁, hbanks₁⟩ := serve_cells h limit ht hp hb haligned
    obtain ⟨b', hrest, hb', hbanks⟩ := ih hb₁ fun q hq => hqs q (by simp [hq])
    refine ⟨b', by simpa [serveAll, hserve, bind, Except.bind] using hrest, hb', ?_⟩
    rw [hbanks, hbanks₁, ← Banks.store_append, List.flatMap_cons, List.flatMap_cons,
      List.zip_append (Request.length_bytes hwrite t)]

/-! Reading. -/

theorem Yields.map {α β : Type} {v : α} {s : Banks} {x : Except Fault (α × Bus σ)}
    (hx : Yields t v s x) (f : α → β) : Yields t (f v) s (x.map fun (v, b) => (f v, b)) := by
  obtain ⟨b', rfl, hb', hs⟩ := hx
  exact ⟨b', rfl, hb', hs⟩

theorem Yields.bind {α β : Type} {v : α} {u : β} {s s' : Banks} {x : Except Fault (α × Bus σ)}
    {f : α × Bus σ → Except Fault (β × Bus σ)} (hx : Yields t v s x)
    (hf : ∀ b', b'.map.Over t → b'.map.banks = s → Yields t u s' (f (v, b'))) :
    Yields t u s' (x >>= f) := by
  obtain ⟨b', rfl, hb', hs⟩ := hx
  exact hf b' hb' hs

section

variable (ht : t.Disjoint) (hp : t.Plain) (hb : b.map.Over t)
include ht hp hb

theorem readByte_cells (a : UInt32) :
    Yields t (b.map.banks.byteAt (t.cell? .read a)) b.map.banks (b.readByte h limit a) := by
  have hserve := serve_cells h limit ht hp hb (q := .read .byte a)
    (by simp [Request.Aligned, Request.read])
  have hanswer : (Request.answer [b.map.banks.byteAt (t.cell? .read a)] (.read .byte a)).toUInt8 =
    b.map.banks.byteAt (t.cell? .read a) := by simp [Request.answer, Request.read, BigEndian.number]
  rw [readByte_eq_serve, ← hanswer]
  exact hserve.map UInt32.toUInt8

theorem readWord_cells (a : UInt32) : ∃ high low,
    ((Request.readWord a).flatMap (·.cells t)).map b.map.banks.byteAt = [high, low] ∧
      Yields t (BigEndian.word high low) b.map.banks (b.readWord h limit a) := by
  unfold Request.readWord
  split
  · rename_i ha
    rw [readWord_odd hb.sound.aligned ha]
    refine ⟨_, _, rfl, (readByte_cells h limit ht hp hb a).bind fun b' hb' hs => ?_⟩
    have hlow := readByte_cells h limit ht hp hb' (a + 1)
    rw [hs] at hlow
    exact hlow.bind fun b'' hb'' hs' => ⟨b'', rfl, hb'', hs'⟩
  · rename_i ha
    have hserve := serve_cells h limit ht hp hb (q := .read .word a)
      fun _ => by simpa [Request.read] using ha
    have hanswer (v u : UInt8) :
        (Request.answer [v, u] (.read .word a)).toUInt16 = BigEndian.word v u := by
      simp [Request.answer, Request.read, BigEndian.word_eq_number]
    refine ⟨_, _, rfl, ?_⟩
    rw [readWord_eq_serve b (by simpa using ha), ← hanswer]
    exact hserve.map UInt32.toUInt16

theorem readLong_cells (a : UInt32) : Yields t (UInt32.ofNat (BigEndian.number
    (((Request.readWord a ++ Request.readWord (a + 2)).flatMap (·.cells t)).map b.map.banks.byteAt)))
    b.map.banks (b.readLong h limit a) := by
  obtain ⟨v₁, v₂, hhigh, hread⟩ := readWord_cells h limit ht hp hb a
  rw [readLong_eq]
  refine hread.bind fun b' hb' hs => ?_
  obtain ⟨v₃, v₄, hlow, hread'⟩ := readWord_cells h limit ht hp hb' (a + 2)
  rw [hs] at hlow hread'
  rw [List.flatMap_append, List.map_append, hhigh, hlow]
  change Yields t (UInt32.ofNat (BigEndian.number [v₁, v₂, v₃, v₄])) _ _
  rw [← BigEndian.long_eq_number]
  exact hread'.bind fun b'' hb'' hs' => ⟨b'', rfl, hb'', hs'⟩

end

end Bus

namespace Operation

variable {h : Handler σ} {limit : Nat} {t : Table} {b b' : Bus σ} {op : Operation}

section

variable (h limit) (ht : t.Disjoint) (hp : t.Plain) (hb : b.map.Over t)
include ht hp hb

theorem perform_write_cells (hop : op.bytes ≠ []) (hparts : op.parts ≠ []) :
    Bus.Yields t .done (b.map.banks.store ((op.cells t).zip op.bytes))
      (op.perform (Bus.port h limit) b) := by
  obtain ⟨b', hserve, hb', hs⟩ := Bus.serveAll_cells h limit ht hp hb
    fun q hq => ⟨op.aligned_parts q hq, direction_parts hop q hq⟩
  rw [Bus.serveAll_eq] at hserve
  obtain ⟨⟨vs, b''⟩, heach, rfl⟩ := Bus.map_ok hserve
  refine ⟨b'', ?_, hb', bytes_parts hop ▸ hs⟩
  rw [perform_each (J := fun b => b.map.Over t) (Bus.over_serve ht hp.quiet) (·.sound.aligned) hb hparts,
    heach, ← reply_of_bytes hop vs]
  rfl

/-- An access answers what is in its places, and leaves there what it writes. -/
theorem perform_cells (hop : op.parts ≠ []) :
    Bus.Yields t (op.answer ((op.cells t).map b.map.banks.byteAt))
      (b.map.banks.store ((op.cells t).zip op.bytes)) (op.perform (Bus.port h limit) b) := by
  have hwrite {n v : Nat} : BigEndian.digits (n + 1) v ≠ [] := by simp [BigEndian.digits]
  cases op with
  | readByte a =>
    have hbyte (v : UInt8) : UInt8.ofNat (BigEndian.number [v]) = v := by simp [BigEndian.number]
    have hread := (Bus.readByte_cells h limit ht hp hb a).map Reply.byte
    rw [← hbyte (b.map.banks.byteAt _)] at hread
    exact hread
  | readWord a =>
    obtain ⟨high, low, hbytes, hread⟩ := Bus.readWord_cells h limit ht hp hb a
    rw [BigEndian.word_eq_number, ← hbytes] at hread
    simp only [bytes, List.zip_nil_right]
    exact hread.map Reply.word
  | readLong a =>
    simp only [bytes, List.zip_nil_right]
    exact (Bus.readLong_cells h limit ht hp hb a).map Reply.long
  | writeByte a v => exact perform_write_cells h limit ht hp hb hwrite hop
  | writeWord a v => exact perform_write_cells h limit ht hp hb hwrite hop
  | writeLong a v => exact perform_write_cells h limit ht hp hb hwrite hop
  | _ => exact absurd rfl hop

end

/-- In every state that a run leads to, where ranges share no address and none calls anyone, an access
answers the bytes in its places, with zero for a byte that has none, and stores what it writes in its
places, the highest byte first. No other byte of the banks changes. What is written to different
places that reads share is read back. -/
theorem accesses_by_cells (hh : h.Confined fun _ => True) (banks : Banks) (s : σ)
    {ops : List Operation} {answers : List Reply}
    (hrun : run (Bus.port h limit) (Bus.attach h (.ofBanks banks) s) ops = .ok (answers, b))
    (ht : b.map.table.Disjoint) (hp : b.map.table.Plain) (hop : op.parts ≠ []) :
    (∀ d a bank offset, b.map.table.cell? d a = some (bank, offset) ↔
        ∃ i < b.map.table.guardIndex, (b.map.table.entry i).owns a = true ∧
          (b.map.table.entry i).access.has d.ready = true ∧
            ∃ k, (b.map.table.entry i).backing = some k ∧ bank = k.bank ∧
              offset = k.base.toNat + (a &&& k.mask).toNat) ∧
      (∀ bank offset, some (bank, offset) ∈ op.cells b.map.table →
        b.map.banks.Reaches .byte bank offset) ∧
      ∃ b', op.perform (Bus.port h limit) b =
          .ok (op.answer ((op.cells b.map.table).map b.map.banks.byteAt), b') ∧
        b'.map.banks = b.map.banks.store ((op.cells b.map.table).zip op.bytes) ∧
        (∀ bank offset, b'.map.banks.byte? bank offset =
          (((op.cells b.map.table).zip op.bytes).reverse.lookup (some (bank, offset))).or
            (b.map.banks.byte? bank offset)) ∧
        (op.bytes ≠ [] → op.readBack.cells b.map.table = op.cells b.map.table →
          none ∉ op.cells b.map.table → (op.cells b.map.table).Nodup →
          ∃ b'', op.readBack.perform (Bus.port h limit) b' = .ok (op.written, b'')) := by
  have hsound : Settles _ (run (Bus.port h limit) _ ops) :=
    settles_run (J := fun b => b.map.Sound) (fun op _ b hb => settles_sound hh hb op)
      (Bus.sound_attach h banks s)
  rw [hrun] at hsound
  have hb : b.map.Over b.map.table := ⟨hsound, rfl⟩
  have hcells : ∀ c ∈ op.cells b.map.table, b.map.banks.Has c := by
    intro c hc
    obtain ⟨q, hq, hc⟩ := List.mem_flatMap.mp hc
    exact hb.has_cells ht (op.aligned_parts q hq) c hc
  obtain ⟨b', hperform, hb', hbanks⟩ := perform_cells h limit ht hp hb hop
  refine ⟨fun d a bank offset => ht.cell?_eq_some, fun bank offset hc => hcells _ hc bank offset rfl, b',
    hperform, hbanks, fun bank offset => ?_, fun hbytes hsame hnone hn => ?_⟩
  · rw [hbanks]
    exact Banks.byte?_store (fun x hx => hcells x.1 (List.of_mem_zip hx).1) bank offset
  · obtain ⟨b'', hread, -, -⟩ := perform_cells h limit ht hp hb' (parts_readBack hbytes)
    have hstored : (op.cells b.map.table).map b'.map.banks.byteAt = op.bytes := by
      rw [hbanks]
      exact Banks.map_byteAt_store (length_cells hbytes _)
        (fun c hc => ⟨ne_of_mem_of_not_mem hc hnone, hcells c hc⟩) hn
    rw [hsame, hstored, answer_readBack hbytes] at hread
    exact ⟨b'', hread⟩

/-- A long that is written at an odd address, and wraps at the end of its four bytes, is read back. -/
theorem accesses_by_cells_window : ∃ (h : Handler Unit) (banks : Banks) (ops : List Operation)
    (answers : List Reply) (b b' b'' : Bus Unit), h.Confined (fun _ => True) ∧
      run (Bus.port h 1) (Bus.attach h (.ofBanks banks) ()) ops = .ok (answers, b) ∧
      b.map.table.Disjoint ∧ b.map.table.Plain ∧
      (writeLong 0x0101 0xAABBCCDD).perform (Bus.port h 1) b = .ok (.done, b') ∧
      b'.map.banks.byte? 0 0 = some 0xDD ∧
      (readLong 0x0101).perform (Bus.port h 1) b' = .ok (.long 0xAABBCCDD, b'') := by
  obtain ⟨h, banks, ops, answers, b, hh, hrun, ht, hp, hcells, hread⟩ : ∃ (h : Handler Unit)
      (banks : Banks) (ops : List Operation) (answers : List Reply) (b : Bus Unit),
        h.Confined (fun _ => True) ∧
        run (Bus.port h 1) (Bus.attach h (.ofBanks banks) ()) ops = .ok (answers, b) ∧
        b.map.table.Disjoint ∧ b.map.table.Plain ∧
        (writeLong 0x0101 0xAABBCCDD).cells b.map.table =
          [some (0, 1), some (0, 2), some (0, 3), some (0, 0)] ∧
        (readLong 0x0101).cells b.map.table =
          [some (0, 1), some (0, 2), some (0, 3), some (0, 0)] := by
    refine ⟨.silent "silent", ⟨#[⟨"ram", ⟨#[7, 9, 1, 2]⟩⟩]⟩,
      [.install ⟨.ofRanges [⟨0xFF00, 0x0100, .union .read .write, some ⟨0, 0, 3⟩, 0⟩] .guard, .zero,
        Arena.valid_ofRanges rfl rfl rfl (by decide)⟩, .readByte 0x0103], _, _,
      Handler.confined_silent _, rfl, ?_, ?_, rfl, rfl⟩
    · exact Table.disjoint_of_mask 0xFF00 (by decide) (by decide)
    · unfold Table.Plain
      decide
  have hparts : (writeLong 0x0101 0xAABBCCDD).parts ≠ [] := by simp [parts]
  obtain ⟨-, -, b', hwrite, -, hstored, hback⟩ := accesses_by_cells hh banks () hrun ht hp hparts
  rw [hcells] at hstored hback
  obtain ⟨b'', hback⟩ := hback (by decide) hread (by decide) (by decide)
  exact ⟨h, banks, ops, answers, b, b', b'', hh, hrun, ht, hp, hwrite, hstored 0 0, hback⟩

end Operation
end MemoryBus
