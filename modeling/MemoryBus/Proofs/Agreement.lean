import MemoryBus.Proofs.Alike
import MemoryBus.Proofs.Telling

/-! Where tables are disjoint, every run through the slots shows what it shows without them. -/
namespace MemoryBus

variable {σ : Type} {h : Handler σ} {limit : Nat} {b c : Bus σ} {q : Request} {qs : List Request}

/-- Told of range `r` on the bus `b`, the handler leaves a disjoint table in force, and is indifferent. -/
structure Handler.Behaves (h : Handler σ) (b : Bus σ) (r : Range) : Prop where
  disjoint : (h.notify b.state r b.map).map.table.Disjoint
  indifferent : h.Indifferent b.state r b.map

/-! The parts of an access without slots. -/

namespace Uncached

/-- One part of an access. -/
def serve (h : Handler σ) (limit : Nat) (q : Request) (b : Bus σ) : Except Fault (UInt32 × Bus σ) := do
  match ← b.resolve h q.direction q.address limit with
  | (.memory _ k, b) => b.transfer q k.bank (k.offset q.address)
  | (.device r, b) => return b.callDevice h r q
  | (.failed, b) => return (0, b)

theorem map_serve {α : Type} (f : UInt32 × Bus σ → α) (q : Request) (b : Bus σ) :
    (serve h limit q b).map f = (do
      match ← b.resolve h q.direction q.address limit with
      | (.memory _ k, b) => (b.transfer q k.bank (k.offset q.address)).map f
      | (.device r, b) => return f (b.callDevice h r q)
      | (.failed, b) => return f (0, b)) := by
  unfold serve
  cases b.resolve h q.direction q.address limit with
  | error e => rfl
  | ok result =>
    obtain ⟨s, b'⟩ := result
    cases s <;> rfl

theorem readByte_eq_serve (b : Bus σ) (a : UInt32) :
    readByte h limit b a = (serve h limit (.read .byte a) b).map fun (v, b) => (v.toUInt8, b) := by
  simp only [map_serve, Bus.transfer_readByte]
  rfl

theorem writeByte_eq_serve (b : Bus σ) (a : UInt32) (v : UInt8) :
    writeByte h limit b a v = (serve h limit (.write .byte a v.toUInt32) b).map (·.2) := by
  simp only [map_serve, Bus.transfer_writeByte]
  rfl

theorem readWord_eq_serve (b : Bus σ) {a : UInt32} (ha : a &&& 1 = 0) :
    readWord h limit b a = (serve h limit (.read .word a) b).map fun (v, b) => (v.toUInt16, b) := by
  simp only [map_serve, Bus.transfer_readWord]
  simp only [readWord, ha, ne_eq, not_true_eq_false, if_false]
  rfl

theorem writeWord_eq_serve (b : Bus σ) {a : UInt32} (ha : a &&& 1 = 0) (v : UInt16) :
    writeWord h limit b a v = (serve h limit (.write .word a v.toUInt32) b).map (·.2) := by
  simp only [map_serve, Bus.transfer_writeWord]
  simp only [writeWord, ha, ne_eq, not_true_eq_false, if_false]
  rfl

end Uncached

namespace Bus

/-- Alike maps, the same state of the handler and the same counts. -/
structure Follows (b c : Bus σ) : Prop where
  map : b.map.Alike c.map
  state : b.state = c.state
  dispatch : b.dispatch = c.dispatch

theorem Follows.note (hbc : b.Follows c) (e : Event) : (b.note e).Follows (c.note e) :=
  ⟨hbc.map.note e, hbc.state, hbc.dispatch⟩

theorem Follows.remember (hbc : b.Follows c) (d : Direction) (w : Width) (r : Range) (k : Backing) :
    (b.remember d w r k).Follows c :=
  ⟨⟨hbc.map.entries, hbc.map.banks, hbc.map.journal⟩, hbc.state, hbc.dispatch⟩

theorem Follows.countDevice (hbc : b.Follows c) : b.countDevice.Follows c.countDevice :=
  ⟨hbc.map, hbc.state,
    congrArg (fun d => { d with deviceAccesses := d.deviceAccesses + 1 }) hbc.dispatch⟩

theorem Follows.countRejected (hbc : b.Follows c) : b.countRejected.Follows c.countRejected :=
  ⟨hbc.map, hbc.state, congrArg (fun d => { d with rejected := d.rejected + 1 }) hbc.dispatch⟩

theorem Follows.countFailed (hbc : b.Follows c) : b.countFailed.Follows c.countFailed :=
  ⟨hbc.map, hbc.state, congrArg (fun d => { d with failed := d.failed + 1 }) hbc.dispatch⟩

theorem Follows.find (hbc : b.Follows c) (hb : b.map.table.Disjoint) {a : UInt32} {found : Lookup}
    {b' : Bus σ} (hfind : b.find a = (found, b')) :
    ∃ found' c', c.find a = (found', c') ∧ found'.range = found.range ∧ b'.Follows c' := by
  obtain ⟨rfl, rfl⟩ := Prod.mk.inj ((find_eq b a).symm.trans hfind)
  exact ⟨_, _, rfl, (hb.range_find_eq hbc.map.entries).symm, hbc.map.find a, hbc.state, hbc.dispatch⟩

theorem Follows.callDevice (hbc : b.Follows c) (r : Range) (q : Request) :
    (b.callDevice h r q).1 = (c.callDevice h r q).1 ∧
      (b.callDevice h r q).2.Follows (c.callDevice h r q).2 := by
  have hnotes : ∀ (es : List Event) (b c : Bus σ), b.Follows c →
      (es.foldl Bus.note b).Follows (es.foldl Bus.note c) := by
    intro es
    induction es with
    | nil => exact fun _ _ hbc => hbc
    | cons e es ih => exact fun b c hbc => ih _ _ (hbc.note e)
  simp only [Bus.callDevice, hbc.state]
  refine ⟨trivial, Follows.note (hnotes _ _ _ ?_) _⟩
  exact ⟨hbc.map, rfl, hbc.dispatch⟩

theorem Follows.notify (hbc : b.Follows c) {r : Range} (hu : h.Indifferent b.state r b.map) {accepted : Bool}
    {b' : Bus σ} (hn : b.notify h r = (accepted, b')) :
    ∃ c', c.notify h r = (accepted, c') ∧ b'.Follows c' := by
  obtain ⟨haccepted, hstate, hmap⟩ := hu c.map hbc.map
  obtain ⟨rfl, rfl⟩ := Prod.mk.inj hn
  refine ⟨(c.notify h r).2, ?_, ?_⟩
  · simp [Bus.notify, ← hbc.state, haccepted]
  · simp only [Bus.notify, ← hbc.state, ← hbc.dispatch, ← haccepted]
    exact ⟨hmap.note _, hstate, rfl⟩

theorem Follows.putByte (hbc : b.Follows c) (bank offset : Nat) (v : UInt8) :
    Matches Follows (b.putByte bank offset v) (c.putByte bank offset v) :=
  (hbc.map.writeByte bank offset v).map fun _ _ hm => ⟨hm, hbc.state, hbc.dispatch⟩

theorem Follows.putWord (hbc : b.Follows c) (bank offset : Nat) (v : UInt16) :
    Matches Follows (b.putWord bank offset v) (c.putWord bank offset v) :=
  (hbc.map.writeWord bank offset v).map fun _ _ hm => ⟨hm, hbc.state, hbc.dispatch⟩

theorem Follows.transfer (hbc : b.Follows c) (q : Request) (bank offset : Nat) :
    Matches (fun (v, b') (u, c') => v = u ∧ b'.Follows c')
      (b.transfer q bank offset) (c.transfer q bank offset) := by
  unfold Bus.transfer
  split
  · refine (matches_of_eq (congrArg (·.readByte bank offset) hbc.map.banks)).map fun _ _ hv => ?_
    exact ⟨congrArg _ hv, hbc⟩
  · refine (matches_of_eq (congrArg (·.readWord bank offset) hbc.map.banks)).map fun _ _ hv => ?_
    exact ⟨congrArg _ hv, hbc⟩
  · exact (hbc.putByte bank offset q.value.toUInt8).map fun _ _ hbc' => ⟨rfl, hbc'⟩
  · exact (hbc.putWord bank offset q.value.toUInt16).map fun _ _ hbc' => ⟨rfl, hbc'⟩

/-- What a slot knows, a lookup without slots finds. -/
theorem Follows.resolve_of_slot (hb : b.map.Tidy) (hbc : b.Follows c) {d : Direction} {w : Width}
    {a : UInt32} {bank offset : Nat} (ht : (b.map.slots.get d w).translate a = some (bank, offset)) :
    ∃ r k c', c.resolve h d a limit = .ok (.memory r k, c') ∧ bank = k.bank ∧ offset = k.offset a ∧
      b.Follows c' := by
  obtain ⟨i, -, k, hk, ho, -, hp⟩ := (hb.sound.filled d w).translate ht
  obtain ⟨hbank, hoffset⟩ := Prod.mk.inj hp
  have hi := Table.lt_guardIndex_of_served hk
  have hindex : (c.map.table.find a).1.index = i := by
    rw [← hb.disjoint.index_find_eq hbc.map.entries]
    exact hb.disjoint.index_find hi ho
  have hr : (c.find a).1.range = b.map.table.entry i := by
    rw [Table.entry_of_entries hbc.map.entries, ← hindex]
    exact Table.range_of_find
  refine ⟨b.map.table.entry i, k, (c.find a).2, ?_, hbank, hoffset, hbc.map.find_right a, hbc.state,
    hbc.dispatch⟩
  unfold Bus.resolve
  simp only [hr, hk]

/-- Both buses look the address up, and notify the handler, the same number of times. -/
theorem Follows.resolve (hb : b.map.table.Disjoint) (hbc : b.Follows c) (d : Direction) (a : UInt32)
    (htold : ∀ b' r, Tells h d a limit b b' r → h.Behaves b' r) :
    Matches (fun (s, b') (s', c') => s = s' ∧ b'.Follows c')
      (b.resolve h d a limit) (c.resolve h d a limit) := by
  fun_induction Bus.resolve h d a limit b generalizing c with
  | case1 limit b found b' hfind k hk =>
    obtain ⟨found', c', hfind', hr, hbc'⟩ := hbc.find hb hfind
    unfold Bus.resolve
    simp only [hfind', hr, hk]
    exact ⟨rfl, hbc'⟩
  | case2 limit b found b' hfind hk hdev =>
    obtain ⟨found', c', hfind', hr, hbc'⟩ := hbc.find hb hfind
    unfold Bus.resolve
    simp only [hfind', hr, hk, hdev, if_true]
    exact ⟨rfl, hbc'.countDevice⟩
  | case3 b found b' hfind hk hdev hnot b₂ hn =>
    obtain ⟨found', c', hfind', hr, hbc'⟩ := hbc.find hb hfind
    obtain ⟨c₂, hn', -⟩ := hbc'.notify (htold _ _ (tells_of_find hfind hk hdev hnot)).indifferent hn
    unfold Bus.resolve
    simp only [hfind', hr, hk, hdev, hnot, hn', if_true]
    exact rfl
  | case4 b found b' hfind hk hdev hnot b₂ limit hn ih =>
    obtain ⟨found', c', hfind', hr, hbc'⟩ := hbc.find hb hfind
    have hbehaves : h.Behaves b' found.range := htold _ _ (tells_of_find hfind hk hdev hnot)
    obtain ⟨c₂, hn', hbc₂⟩ := hbc'.notify hbehaves.indifferent hn
    have hc : c.resolve h d a (limit + 1) = c₂.resolve h d a limit := by
      rw [Bus.resolve]
      simp only [hfind', hr, hk, hdev, hnot, hn', if_true]
      rfl
    rw [hc]
    refine ih ?_ hbc₂ fun b'' r htells => htold b'' r ?_
    · rw [notify_map hn]
      exact hbehaves.disjoint
    · obtain ⟨rfl, rfl⟩ := Prod.mk.inj ((find_eq b a).symm.trans hfind)
      exact .again ⟨hk, by simpa using hdev, hnot⟩ hn htells
  | case5 limit b found b' hfind hk hdev hnot b₂ hn =>
    obtain ⟨found', c', hfind', hr, hbc'⟩ := hbc.find hb hfind
    obtain ⟨c₂, hn', hbc₂⟩ :=
      hbc'.notify (htold _ _ (tells_of_find hfind hk hdev hnot)).indifferent hn
    unfold Bus.resolve
    simp only [hfind', hr, hk, hdev, hnot, hn', if_true]
    exact ⟨rfl, (hbc₂.countRejected.note _).countFailed⟩
  | case6 limit b found b' hfind hk hdev hnot =>
    obtain ⟨found', c', hfind', hr, hbc'⟩ := hbc.find hb hfind
    unfold Bus.resolve
    simp only [hfind', hr, hk, hdev, hnot]
    exact ⟨rfl, (hbc'.note _).countFailed⟩

theorem Follows.serve (hb : b.map.Tidy) (hbc : b.Follows c) (htold : b.Misses q → ∀ b' r,
      Tells h q.direction q.address limit b b' r → h.Behaves b' r) :
    Matches (fun (v, b') (u, c') => v = u ∧ b'.Follows c')
      (b.serve h limit q) (Uncached.serve h limit q c) := by
  unfold Bus.serve Uncached.serve
  split
  · rename_i bank offset hslot
    obtain ⟨r, k, c', hc, rfl, rfl, hbc'⟩ := hbc.resolve_of_slot hb hslot
    rw [hc]
    exact hbc'.transfer q k.bank (k.offset q.address)
  · rename_i hmiss
    refine (hbc.resolve hb.disjoint q.direction q.address (htold hmiss)).bind ?_
    rintro ⟨s, b'⟩ ⟨_, c'⟩ ⟨rfl, hbc'⟩
    cases s with
    | memory r k => exact (hbc'.remember q.direction q.width r k).transfer q k.bank (k.offset q.address)
    | device r => exact hbc'.callDevice r q
    | failed => exact ⟨rfl, hbc'⟩

/-- The buses `b` and `c` before the parts `qs` of an access, for which the handler behaves. -/
structure InStep (h : Handler σ) (limit : Nat) (qs : List Request) (b c : Bus σ) : Prop where
  tidy : b.map.Tidy
  follows : b.Follows c
  told : ∀ b' r, TellsAmong h limit qs b b' r → h.Behaves b' r

section

variable (hh : h.Confined fun _ => True)
include hh

theorem InStep.serve (hbc : InStep h limit (q :: qs) b c) (hq : q.Aligned) :
    Matches (fun (v, b') (u, c') => v = u ∧ InStep h limit qs b' c')
      (b.serve h limit q) (Uncached.serve h limit q c) := by
  have htold (hmiss : b.Misses q) (b' : Bus σ) (r : Range)
      (htells : Tells h q.direction q.address limit b b' r) : h.Behaves b' r :=
    hbc.told b' r (tellsAmong_first hmiss htells)
  obtain ⟨⟨v, b'⟩, ⟨_, c'⟩, hb', hc', ⟨rfl, hfollows⟩⟩ | ⟨e, hb', hc'⟩ :=
    (hbc.follows.serve hbc.tidy htold).cases
  · rw [hb', hc']
    have htidy : b'.map.Tidy := lasts_serve MemoryMap.lasting_tidy hbc.tidy hq
      (fun hmiss b₁ r htells hb₁ =>
        ⟨(keeps_sound hh).notify _ _ hb₁.sound, (htold hmiss b₁ r htells).disjoint⟩) hb'
    exact ⟨rfl, htidy, hfollows, fun b₁ r htells => hbc.told b₁ r (tellsAmong_rest hb' htells)⟩
  · rw [hb', hc']
    exact rfl

theorem InStep.readByte {a : UInt32} (hbc : InStep h limit (.read .byte a :: qs) b c) :
    Matches (fun (v, b') (u, c') => v = u ∧ InStep h limit qs b' c')
      (b.readByte h limit a) (Uncached.readByte h limit c a) := by
  rw [readByte_eq_serve, Uncached.readByte_eq_serve]
  exact (hbc.serve hh (by simp [Request.Aligned, Request.read])).map
    fun _ _ ⟨hv, hbc'⟩ => ⟨congrArg _ hv, hbc'⟩

theorem InStep.writeByte {a : UInt32} {v : UInt8} (hbc : InStep h limit (.write .byte a v.toUInt32 :: qs) b c) :
    Matches (InStep h limit qs) (b.writeByte h limit a v) (Uncached.writeByte h limit c a v) := by
  rw [writeByte_eq_serve, Uncached.writeByte_eq_serve]
  exact (hbc.serve hh (by simp [Request.Aligned, Request.write])).map fun _ _ ⟨_, hbc'⟩ => hbc'

theorem InStep.readWord {a : UInt32} (hbc : InStep h limit (Request.readWord a ++ qs) b c) :
    Matches (fun (v, b') (u, c') => v = u ∧ InStep h limit qs b' c')
      (b.readWord h limit a) (Uncached.readWord h limit c a) := by
  unfold Request.readWord at hbc
  split at hbc
  · rename_i ha
    rw [readWord_odd hbc.tidy.sound.aligned ha]
    simp only [Uncached.readWord, ha, ne_eq, not_false_eq_true, if_true]
    refine (hbc.readByte hh).bind ?_
    rintro ⟨high, b'⟩ ⟨_, c'⟩ ⟨rfl, hbc'⟩
    refine (hbc'.readByte hh).bind ?_
    rintro ⟨low, b''⟩ ⟨_, c''⟩ ⟨rfl, hbc''⟩
    exact ⟨rfl, hbc''⟩
  · rename_i ha
    have ha : a &&& 1 = 0 := by simpa using ha
    rw [readWord_eq_serve b ha, Uncached.readWord_eq_serve c ha]
    exact (hbc.serve hh fun _ => ha).map fun _ _ ⟨hv, hbc'⟩ => ⟨congrArg _ hv, hbc'⟩

theorem InStep.writeWord {a : UInt32} {v : UInt16} (hbc : InStep h limit (Request.writeWord a v ++ qs) b c) :
    Matches (InStep h limit qs) (b.writeWord h limit a v) (Uncached.writeWord h limit c a v) := by
  unfold Request.writeWord at hbc
  split at hbc
  · rename_i ha
    rw [writeWord_odd hbc.tidy.sound.aligned ha]
    simp only [Uncached.writeWord, ha, ne_eq, not_false_eq_true, if_true]
    exact (hbc.writeByte hh).bind fun _ _ hbc' => hbc'.writeByte hh
  · rename_i ha
    have ha : a &&& 1 = 0 := by simpa using ha
    rw [writeWord_eq_serve b ha, Uncached.writeWord_eq_serve c ha]
    exact (hbc.serve hh fun _ => ha).map fun _ _ ⟨_, hbc'⟩ => hbc'

theorem InStep.readLong {a : UInt32}
    (hbc : InStep h limit (Request.readWord a ++ (Request.readWord (a + 2) ++ qs)) b c) :
    Matches (fun (v, b') (u, c') => v = u ∧ InStep h limit qs b' c')
      (b.readLong h limit a) (Uncached.readLong h limit c a) := by
  rw [readLong_eq]
  refine (hbc.readWord hh).bind ?_
  rintro ⟨high, b'⟩ ⟨_, c'⟩ ⟨rfl, hbc'⟩
  refine (hbc'.readWord hh).bind ?_
  rintro ⟨low, b''⟩ ⟨_, c''⟩ ⟨rfl, hbc''⟩
  exact ⟨rfl, hbc''⟩

theorem InStep.writeLong {a v : UInt32} (hbc : InStep h limit (Request.writeWord a (BigEndian.longHigh v) ++
      (Request.writeWord (a + 2) (BigEndian.longLow v) ++ qs)) b c) :
    Matches (InStep h limit qs) (b.writeLong h limit a v) (Uncached.writeLong h limit c a v) := by
  rw [writeLong_eq]
  exact (hbc.writeWord hh).bind fun _ _ hbc' => hbc'.writeWord hh

end

end Bus

/-- What a run shows of a memory: the contents of the banks, the journal with every call of a device
and every notification, the counts of the accesses that no bank served, and the handler's state. -/
structure Observation (σ : Type) where
  banks : Banks
  journal : Journal
  dispatch : Dispatch
  state : σ

def Bus.observe (b : Bus σ) : Observation σ := ⟨b.map.banks, b.map.journal.steady, b.dispatch, b.state⟩

theorem Bus.Follows.observe (hbc : b.Follows c) : b.observe = c.observe := by
  simp only [Bus.observe, hbc.map.banks, hbc.map.journal, hbc.state, hbc.dispatch]

namespace Handler

/-- Told for the first time, the handler installs the map's own table anew. After that it installs the window.
It accepts if the table fits. -/
def refitting (window : Table) : Handler Bool where
  name := "refitting"
  device told _ _ := ⟨0, told, []⟩
  notify told _ m :=
    match m.install (if told then window else m.table) with
    | .ok m => ⟨true, true, m⟩
    | .error _ => ⟨false, told, m⟩

theorem confined_refitting (window : Table) : (refitting window).Confined fun _ => True := by
  intro told r m
  simp only [refitting]
  split
  · rename_i hm
    exact .single (.install trivial hm)
  · exact .refl

theorem indifferent_refitting (window : Table) (told : Bool) (r : Range) (m : MemoryMap) :
    (refitting window).Indifferent told r m := by
  intro m' hm
  have hentries : (if told then window else m.table).entries = (if told then window else m'.table).entries := by
    split
    · rfl
    · exact hm.entries
  simp only [refitting]
  obtain ⟨v, u, hv, hu, hvu⟩ | ⟨e, hv, hu⟩ := (hm.install hentries).cases
  · simp [hv, hu, hvu]
  · simp [hv, hu, hm]

theorem carries_refitting {window : Table} (hwindow : window.Disjoint) :
    (refitting window).Carries MemoryMap.Tidy where
  find := MemoryMap.lasting_tidy.find
  fill := MemoryMap.lasting_tidy.fill
  banks := MemoryMap.lasting_tidy.banks
  note := MemoryMap.lasting_tidy.note
  notify told r hm := by
    refine ⟨(keeps_sound (confined_refitting window)).notify told r hm.sound, ?_⟩
    simp only [refitting]
    split
    · rename_i hinstall
      obtain ⟨-, rfl⟩ := MemoryMap.install_ok hinstall
      cases told with
      | true => exact hwindow
      | false => exact hm.disjoint
    · exact hm.disjoint

end Handler

namespace Operation

theorem settle_follows (hbc : b.Follows c) {x y : Except MemoryError MemoryMap}
    (hxy : Matches MemoryMap.Alike x y) :
    (settle b x).1 = (settle c y).1 ∧ (settle b x).2.Follows (settle c y).2 := by
  obtain ⟨m, m', rfl, rfl, hm⟩ | ⟨e, rfl, rfl⟩ := hxy.cases
  · exact ⟨rfl, hm, hbc.state, hbc.dispatch⟩
  · exact ⟨rfl, hbc⟩

section

variable {ops : List Operation} (hh : h.Confined fun _ => True)
include hh

/-- One operation through the slots, and the same one without them. -/
theorem perform_follows (op : Operation) (hbc : Bus.InStep h limit op.parts b c) :
    Matches (fun (x, b') (y, c') => x = y ∧ b'.Follows c')
      (op.perform (Bus.port h limit) b) (op.perform (Uncached.port h limit) c) := by
  have hfollows := hbc.follows
  -- The parts of the operation are followed by no others.
  rw [← List.append_nil op.parts] at hbc
  cases op with
  | readByte a => exact (hbc.readByte hh).map fun _ _ hread => ⟨congrArg _ hread.1, hread.2.follows⟩
  | readWord a => exact (hbc.readWord hh).map fun _ _ hread => ⟨congrArg _ hread.1, hread.2.follows⟩
  | readLong a =>
    rw [parts, List.append_assoc] at hbc
    exact (hbc.readLong hh).map fun _ _ hread => ⟨congrArg _ hread.1, hread.2.follows⟩
  | writeByte a v => exact (hbc.writeByte hh).map fun _ _ hbc' => ⟨rfl, hbc'.follows⟩
  | writeWord a v => exact (hbc.writeWord hh).map fun _ _ hbc' => ⟨rfl, hbc'.follows⟩
  | writeLong a v =>
    rw [parts, List.append_assoc] at hbc
    exact (hbc.writeLong hh).map fun _ _ hbc' => ⟨rfl, hbc'.follows⟩
  | find a =>
    obtain ⟨_, _, hfind, hr, hbc'⟩ := hfollows.find hbc.tidy.disjoint (rfl : b.find a = (_, _))
    simp only [perform, hfind, hr]
    exact ⟨rfl, hbc'⟩
  | install t => exact settle_follows hfollows ((hfollows.map.install rfl).mapError _)
  | reinstall => exact settle_follows hfollows ((hfollows.map.install hfollows.map.entries).mapError _)
  | addBank name bytes => exact ⟨rfl, hfollows.map.addBank name bytes, hfollows.state, hfollows.dispatch⟩
  | overwriteBank i offset bytes =>
    exact ⟨rfl, hfollows.map.overwriteBank i offset bytes, hfollows.state, hfollows.dispatch⟩
  | restore s => exact settle_follows hfollows ((hfollows.map.restore s).mapError _)
  | loadImage i path file =>
    obtain ⟨hresult, hmap⟩ := hfollows.map.loadImage i path file
    exact ⟨congrArg Reply.ofResult hresult, hmap, hfollows.state, hfollows.dispatch⟩
  | resetStats => exact ⟨rfl, hfollows.map.resetStats, hfollows.state, rfl⟩

/-- The operations and the handler may install any table, so that the disjointness of each one is assumed. -/
theorem run_follows (hb : b.map.Sound) (hbc : b.Follows c)
    (hdisjoint : ∀ t, InForce h limit ops b t → t.Disjoint)
    (hu : ∀ b' r, Tells h limit ops b b' r → h.Indifferent b'.state r b'.map) :
    Matches (fun (xs, b') (ys, c') => xs = ys ∧ b'.Follows c')
      (run (Bus.port h limit) b ops) (run (Uncached.port h limit) c ops) := by
  induction ops generalizing b c with
  | nil => exact ⟨rfl, hbc⟩
  | cons op ops ih =>
    have hinstep : Bus.InStep h limit op.parts b c :=
      ⟨⟨hb, hdisjoint _ (inForce_start _ b)⟩, hbc, fun b' r htells =>
        ⟨hdisjoint _ (.left b' r (tells_first htells)), hu b' r (tells_first htells)⟩⟩
    have hsound : Settles _ (op.perform (Bus.port h limit) b) := settles_sound hh hb op
    obtain ⟨⟨x, b'⟩, ⟨_, c'⟩, hx, hy, ⟨rfl, hbc'⟩⟩ | ⟨e, hx, hy⟩ := (perform_follows hh op hinstep).cases
    · rw [hx] at hsound
      simp only [run, hx, hy]
      refine (ih hsound hbc' (fun t ht => hdisjoint t (inForce_rest hx ht))
        fun b₁ r htells => hu b₁ r (tells_rest hx htells)).bind fun _ _ hrest => ?_
      exact ⟨congrArg (x :: ·) hrest.1, hrest.2⟩
    · simp only [run, hx, hy]
      exact rfl

end

/-- Slots make no difference. The tables of the run have to be disjoint, for otherwise the order of the
list decides what a lookup finds, and where it is told of an access the handler must not look at what slots
and lookups leave behind. -/
theorem run_uncached (hh : h.Confined fun _ => True) (banks : Banks) (s : σ) (ops : List Operation)
    (hdisjoint : ∀ t, InForce h limit ops (Bus.attach h (.ofBanks banks) s) t → t.Disjoint)
    (hu : ∀ b r, Tells h limit ops (Bus.attach h (.ofBanks banks) s) b r → h.Indifferent b.state r b.map) :
    (run (Bus.port h limit) (Bus.attach h (.ofBanks banks) s) ops).map
        (fun (answers, b') => (answers, b'.observe)) =
      (run (Uncached.port h limit) (Bus.attach h (.ofBanks banks) s) ops).map
        fun (answers, b') => (answers, b'.observe) := by
  have hstart : (Bus.attach h (.ofBanks banks) s).Follows (Bus.attach h (.ofBanks banks) s) :=
    ⟨.refl _, rfl, rfl⟩
  obtain ⟨⟨xs, b'⟩, ⟨ys, c'⟩, hx, hy, ⟨rfl, hbc⟩⟩ | ⟨e, hx, hy⟩ :=
    (run_follows hh (Bus.sound_attach h banks s) hstart hdisjoint hu).cases
  · simp only [hx, hy, Except.map, hbc.observe]
  · simp only [hx, hy, Except.map]

/-- A byte is written where no window is yet: while the access is made, the table is first put in place again
and then replaced. -/
theorem run_uncached_refitting : ∃ (h : Handler Bool) (banks : Banks) (ops : List Operation),
    h.Confined (fun _ => True) ∧
      (∀ t, InForce h 2 ops (Bus.attach h (.ofBanks banks) false) t → t.Disjoint) ∧
      (∀ b r, Tells h 2 ops (Bus.attach h (.ofBanks banks) false) b r → h.Indifferent b.state r b.map) ∧
      (run (Bus.port h 2) (Bus.attach h (.ofBanks banks) false) ops).map
          (fun (answers, b') => (answers, b'.dispatch.notifications)) =
        .ok ([.done, .done, .long 0x07030703], 2) ∧
      (run (Bus.port h 2) (Bus.attach h (.ofBanks banks) false) ops).map
          (fun (answers, b') => (answers, b'.observe)) =
        (run (Uncached.port h 2) (Bus.attach h (.ofBanks banks) false) ops).map
          fun (answers, b') => (answers, b'.observe) := by
  obtain ⟨asking, window, hasking, hwindow, hrun⟩ : ∃ asking window : Table,
      asking.Disjoint ∧ window.Disjoint ∧ (run (Bus.port (.refitting window) 2)
          (Bus.attach (.refitting window) (.ofBanks ⟨#[⟨"ram", ⟨#[7, 9]⟩⟩]⟩) false)
          [.install asking, .writeByte 0x0101 3, .readLong 0x0102]).map
            (fun (answers, b') => (answers, b'.dispatch.notifications)) =
        .ok ([.done, .done, .long 0x07030703], 2) :=
    ⟨⟨.ofRanges [.ofAccess 0 0 .notify] .guard, .zero, Arena.valid_ofRanges rfl rfl rfl (by decide)⟩,
      ⟨.ofRanges [⟨0xFF00, 0x0100, .union .read .write, some ⟨0, 0, 1⟩, 0⟩,
        .ofAccess 0xFF00 0x0200 .device] .guard, .zero, Arena.valid_ofRanges rfl rfl rfl (by decide)⟩,
      Table.disjoint_of_mask 0 (by decide) (by decide),
      Table.disjoint_of_mask 0xFF00 (by decide) (by decide), rfl⟩
  have hh := Handler.confined_refitting window
  have hdisjoint (t : Table) (ht : InForce (.refitting window) 2
      [.install asking, .writeByte 0x0101 3, .readLong 0x0102]
      (Bus.attach (.refitting window) (.ofBanks ⟨#[⟨"ram", ⟨#[7, 9]⟩⟩]⟩) false) t) : t.Disjoint := by
    refine inForce_of_carries (Handler.carries_refitting hwindow) (·.sound.aligned) MemoryMap.Tidy.change ?_
      (·.disjoint) (fun t ht => ?_) ((MemoryMap.tidy_ofBanks _).change (.note _ _)) ht
    · exact fun hm => ⟨hm.sound.of_same rfl rfl List.prefix_rfl, hm.disjoint⟩
    · obtain rfl : t = asking := by simpa using ht
      exact hasking
  have hu (b : Bus Bool) (r : Range) : (Handler.refitting window).Indifferent b.state r b.map :=
    Handler.indifferent_refitting window b.state r b.map
  exact ⟨_, _, _, hh, hdisjoint, fun b r _ => hu b r, hrun,
    run_uncached hh _ false _ hdisjoint fun b r _ => hu b r⟩

end Operation
end MemoryBus
