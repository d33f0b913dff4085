import MemoryBus.Operation
import MemoryBus.Proofs.Slots

/-! A property of memory maps that lookups, slots and the handler keep is kept by every access, and
no access leaves the banks. -/
namespace MemoryBus

variable {σ α β : Type} {h : Handler σ} {I : MemoryMap → Prop} {b : Bus σ} {limit : Nat}

/-- A result with property `Q`, or none because the handler never lets the access be served. -/
def Settles (Q : α → Prop) : Except Fault α → Prop
  | .ok x => Q x
  | .error (.unresolved _) => True
  | .error (.outsideBank _ _) => False

theorem Settles.bind {Q : α → Prop} {R : β → Prop} {x : Except Fault α} {f : α → Except Fault β}
    (hx : Settles Q x) (hf : ∀ v, Q v → Settles R (f v)) : Settles R (x >>= f) := by
  cases x with
  | ok v => exact hf v hx
  | error e => cases e <;> exact hx

theorem Settles.imp {Q R : α → Prop} {x : Except Fault α} (hx : Settles Q x) (h : ∀ v, Q v → R v) :
    Settles R x := by
  cases x with
  | ok v => exact h v hx
  | error e => cases e <;> exact hx

theorem Settles.map {Q : α → Prop} {R : β → Prop} {x : Except Fault α} {f : α → β}
    (hx : Settles Q x) (hf : ∀ v, Q v → R (f v)) : Settles R (x.map f) := by
  cases x with
  | ok v => exact hf v hx
  | error e => cases e <;> exact hx

/-- The handler is told of an access in this direction, because neither a bank nor a device serves it. -/
structure Range.Asks (r : Range) (d : Direction) : Prop where
  unserved : r.served d = none
  no_device : r.access.has .device = false
  notifies : r.access.has .notify = true

instance (r : Range) (d : Direction) : Decidable (r.Asks d) :=
  decidable_of_iff (r.served d = none ∧ r.access.has .device = false ∧ r.access.has .notify = true)
    ⟨fun h => ⟨h.1, h.2.1, h.2.2⟩, fun h => ⟨h.unserved, h.no_device, h.notifies⟩⟩

/-- What lookups, slots, contents and the journal leave of a memory map. -/
structure MemoryMap.Lasting (I : MemoryMap → Prop) : Prop where
  find : ∀ {m} a, I m → I (m.find a).2
  fill : ∀ {m d w a k}, I m → (m.find a).1.range.served d = some k → (w = .word → a &&& 1 = 0) →
    I { (m.find a).2 with slots := (m.find a).2.slots.remember d w (m.find a).1.range k }
  banks : ∀ {m banks}, I m → banks.sizes = m.banks.sizes → I { m with banks }
  note : ∀ {m} e, I m → I (m.note e)

/-- What an invariant of accesses with handler `h` has to survive. -/
structure Handler.Keeps (h : Handler σ) (I : MemoryMap → Prop) : Prop where
  sound : ∀ {m}, I m → m.Sound
  find : ∀ {m} a, I m → I (m.find a).2
  fill : ∀ {m d w a k}, I m → (m.find a).1.range.served d = some k → (w = .word → a &&& 1 = 0) →
    I { (m.find a).2 with slots := (m.find a).2.slots.remember d w (m.find a).1.range k }
  banks : ∀ {m banks}, I m → banks.sizes = m.banks.sizes → I { m with banks }
  note : ∀ {m} e, I m → I (m.note e)
  notify : ∀ {m} s r, I m → I (h.notify s r m).map

/-- The same for an invariant that need not keep accesses inside the banks. -/
structure Handler.Carries (h : Handler σ) (I : MemoryMap → Prop) : Prop where
  find : ∀ {m} a, I m → I (m.find a).2
  fill : ∀ {m d w a k}, I m → (m.find a).1.range.served d = some k → (w = .word → a &&& 1 = 0) →
    I { (m.find a).2 with slots := (m.find a).2.slots.remember d w (m.find a).1.range k }
  banks : ∀ {m banks}, I m → banks.sizes = m.banks.sizes → I { m with banks }
  note : ∀ {m} e, I m → I (m.note e)
  notify : ∀ {m} s r, I m → I (h.notify s r m).map

theorem Handler.Keeps.carries (hI : h.Keeps I) : h.Carries I :=
  ⟨hI.find, hI.fill, hI.banks, hI.note, hI.notify⟩

theorem Handler.Carries.lasting (hI : h.Carries I) : MemoryMap.Lasting I := ⟨hI.find, hI.fill, hI.banks, hI.note⟩

/-- The same until an access is served. -/
structure Handler.Passes (h : Handler σ) (I : MemoryMap → Prop) : Prop where
  find : ∀ {m} a, I m → I (m.find a).2
  note : ∀ {m} e, I m → I (m.note e)
  notify : ∀ {m} s r, I m → I (h.notify s r m).map

theorem Handler.Carries.passes (hI : h.Carries I) : h.Passes I := ⟨hI.find, hI.note, hI.notify⟩

namespace Bus

theorem callDevice_map (hn : ∀ {m} e, I m → I (m.note e)) (hb : I b.map) (r : Range) (q : Request) :
    I (b.callDevice h r q).2.map := by
  have hnotes : ∀ (es : List Event) (b : Bus σ), I b.map → I (es.foldl note b).map := by
    intro es
    induction es with
    | nil => exact fun _ hb => hb
    | cons e es ih => exact fun b hb => ih (b.note e) (hn e hb)
  exact hn _ (hnotes _ _ hb)

theorem putByte_ok {bank offset : Nat} (hr : b.map.banks.Reaches .byte bank offset) (v : UInt8) :
    b.putByte bank offset v =
      .ok { b with map := { b.map with banks := b.map.banks.setByte bank offset v } } := by
  simp [putByte, MemoryMap.writeByte_ok hr, Except.map]

theorem putWord_ok {bank offset : Nat} (hr : b.map.banks.Reaches .word bank offset) (v : UInt16) :
    b.putWord bank offset v = .ok { b with map := { b.map with
      banks := (b.map.banks.setByte bank offset (BigEndian.wordHigh v)).setByte bank (offset + 1)
        (BigEndian.wordLow v) } } := by
  simp [putWord, MemoryMap.writeWord_ok hr, Except.map]

theorem find_eq (b : Bus σ) (a : UInt32) :
    b.find a = ((b.map.find a).1, { b with map := (b.map.find a).2 }) := rfl

theorem eq_of_notify {r : Range} {accepted : Bool} {b' : Bus σ}
    (hn : b.notify h r = (accepted, b')) :
    b' = ⟨(h.notify b.state r b.map).map.note (.notified r accepted),
      (h.notify b.state r b.map).state,
      { b.dispatch with notifications := b.dispatch.notifications + 1 }⟩ := by
  obtain ⟨rfl, rfl⟩ := Prod.mk.inj hn
  rfl

theorem notify_map {r : Range} {accepted : Bool} {b' : Bus σ} (hn : b.notify h r = (accepted, b')) :
    b'.map = (h.notify b.state r b.map).map.note (.notified r accepted) := by
  obtain ⟨rfl, rfl⟩ := Prod.mk.inj hn
  rfl

theorem passes_notify (hI : h.Passes I) (hb : I b.map) {r : Range} {accepted : Bool} {b' : Bus σ}
    (hn : b.notify h r = (accepted, b')) : I b'.map := by
  rw [notify_map hn]
  exact hI.note _ (hI.notify _ _ hb)

/-- A range found for an access is remembered in its slot, and the access stays inside the bank. -/
theorem remember_served (hI : h.Keeps I) {m : MemoryMap} {d : Direction} {w : Width} {a : UInt32}
    {k : Backing} {r : Range} (hm : I m) (hmap : b.map = (m.find a).2) (hr : r = (m.find a).1.range)
    (hk : r.served d = some k) (ha : w = .word → a &&& 1 = 0) :
    I (b.remember d w r k).map ∧ (b.remember d w r k).map.banks.Reaches w k.bank (k.offset a) := by
  subst hr
  simp only [remember, hmap]
  exact ⟨hI.fill hm hk ha, (hI.sound (hI.find a hm)).reaches_find hk ha⟩

/-- The handler is told of range `r` on the bus `c`, when an access to `a` in direction `d` is resolved on `b`:
at once, or after it has accepted and the access was looked up again. -/
inductive Tells (h : Handler σ) (d : Direction) (a : UInt32) : Nat → Bus σ → Bus σ → Range → Prop
  | first {limit : Nat} {b : Bus σ} : (b.map.find a).1.range.Asks d →
    Tells h d a limit b (b.find a).2 (b.map.find a).1.range
  | again {limit : Nat} {b b' c : Bus σ} {r : Range} : (b.map.find a).1.range.Asks d →
    (b.find a).2.notify h (b.map.find a).1.range = (true, b') → Tells h d a limit b' c r →
    Tells h d a (limit + 1) b c r

theorem tells_of_find {d : Direction} {found : Lookup} {b' : Bus σ} (hfind : b.find a = (found, b'))
    (hk : found.range.served d = none) (hdev : ¬ found.range.access.has .device = true)
    (hnot : found.range.access.has .notify = true) : Tells h d a limit b b' found.range := by
  obtain ⟨rfl, rfl⟩ := Prod.mk.inj ((find_eq b a).symm.trans hfind)
  exact .first ⟨hk, by simpa using hdev, hnot⟩

/-- A resolution ends with a lookup in the table in force, and a memory range comes from there. The handler has
to keep the property only where it is told of the access. -/
theorem settles_resolve_of_told (hfind : ∀ {m} a, I m → I (m.find a).2) (hnote : ∀ {m} e, I m → I (m.note e))
    (hb : I b.map) (d : Direction) (a : UInt32) (htold : ∀ c r, Tells h d a limit b c r →
      I c.map → I (h.notify c.state r c.map).map) :
    Settles (fun (s, b') => I b'.map ∧
      ∀ r k, s = .memory r k → r.served d = some k ∧
        ∃ m, I m ∧ b'.map = (m.find a).2 ∧ r = (m.find a).1.range)
      (b.resolve h d a limit) := by
  fun_induction resolve h d a limit b with
  | case1 limit b found b' hlookup k hk =>
    obtain ⟨rfl, rfl⟩ := Prod.mk.inj ((find_eq b a).symm.trans hlookup)
    refine ⟨hfind a hb, ?_⟩
    rintro r k ⟨⟩
    exact ⟨hk, b.map, hb, rfl, rfl⟩
  | case2 limit b found b' hlookup hk hdev =>
    obtain ⟨rfl, rfl⟩ := Prod.mk.inj ((find_eq b a).symm.trans hlookup)
    exact ⟨hfind a hb, by simp⟩
  | case3 => trivial
  | case4 b found b₁ hlookup hk hdev hnot b₂ limit hn ih =>
    obtain ⟨rfl, rfl⟩ := Prod.mk.inj ((find_eq b a).symm.trans hlookup)
    have hasks : (b.map.find a).1.range.Asks d := ⟨hk, by simpa using hdev, hnot⟩
    refine ih ?_ fun c r hc => htold c r (.again hasks hn hc)
    rw [notify_map hn]
    exact hnote _ (htold _ _ (.first hasks) (hfind a hb))
  | case5 limit b found b₁ hlookup hk hdev hnot b₂ hn =>
    obtain ⟨rfl, rfl⟩ := Prod.mk.inj ((find_eq b a).symm.trans hlookup)
    have hasks : (b.map.find a).1.range.Asks d := ⟨hk, by simpa using hdev, hnot⟩
    have hb₂ : I b₂.map := by
      rw [notify_map hn]
      exact hnote _ (htold _ _ (.first hasks) (hfind a hb))
    exact ⟨hnote _ hb₂, by simp⟩
  | case6 limit b found b' hlookup hk hdev hnot =>
    obtain ⟨rfl, rfl⟩ := Prod.mk.inj ((find_eq b a).symm.trans hlookup)
    exact ⟨hnote _ (hfind a hb), by simp⟩

theorem settles_resolve_of_passes (hI : h.Passes I) (hb : I b.map) (d : Direction) (a : UInt32) :
    Settles (fun (s, b') => I b'.map ∧
      ∀ r k, s = .memory r k → r.served d = some k ∧
        ∃ m, I m ∧ b'.map = (m.find a).2 ∧ r = (m.find a).1.range)
      (b.resolve h d a limit) :=
  settles_resolve_of_told hI.find hI.note hb d a fun _ _ _ hc => hI.notify _ _ hc

theorem settles_resolve_of_carries (hI : h.Carries I) (hb : I b.map) (d : Direction) (a : UInt32) :
    Settles (fun (s, b') => I b'.map ∧
      ∀ r k, s = .memory r k → r.served d = some k ∧
        ∃ m, I m ∧ b'.map = (m.find a).2 ∧ r = (m.find a).1.range)
      (b.resolve h d a limit) := settles_resolve_of_passes hI.passes hb d a

variable (hI : h.Keeps I) (hb : I b.map)
include hI hb

theorem settles_resolve (d : Direction) (a : UInt32) : Settles (fun (s, b') => I b'.map ∧
    ∀ r k, s = .memory r k → r.served d = some k ∧
      ∃ m, I m ∧ b'.map = (m.find a).2 ∧ r = (m.find a).1.range)
    (b.resolve h d a limit) := settles_resolve_of_carries hI.carries hb d a

theorem settles_putByte {bank offset : Nat} (hr : b.map.banks.Reaches .byte bank offset) (v : UInt8) :
    Settles (fun b' => I b'.map) (b.putByte bank offset v) := by
  rw [putByte_ok hr]
  exact hI.banks hb (Banks.sizes_setByte v)

theorem settles_putWord {bank offset : Nat} (hr : b.map.banks.Reaches .word bank offset) (v : UInt16) :
    Settles (fun b' => I b'.map ∧ b'.map.banks.sizes = b.map.banks.sizes) (b.putWord bank offset v) := by
  rw [putWord_ok hr]
  exact ⟨hI.banks hb (by simp), by simp⟩

theorem settles_fetchByte (a : UInt32) : Settles (fun (_, b') => I b'.map) (b.fetchByte h limit a) := by
  refine (settles_resolve hI hb .read a).bind ?_
  rintro ⟨s, b'⟩ ⟨hb', hmem⟩
  cases s with
  | memory r k =>
    obtain ⟨hk, m, hm, hmap, hr⟩ := hmem r k rfl
    obtain ⟨hi, hreach⟩ := remember_served hI hm hmap hr hk (w := .byte) (by simp)
    obtain ⟨v, hv⟩ := Banks.readByte_ok hreach
    simp only [hv]
    exact hi
  | device r => exact callDevice_map hI.note hb' r _
  | failed => exact hb'

theorem settles_storeByte (a : UInt32) (v : UInt8) :
    Settles (fun b' => I b'.map) (b.storeByte h limit a v) := by
  refine (settles_resolve hI hb .write a).bind ?_
  rintro ⟨s, b'⟩ ⟨hb', hmem⟩
  cases s with
  | memory r k =>
    obtain ⟨hk, m, hm, hmap, hr⟩ := hmem r k rfl
    obtain ⟨hi, hreach⟩ := remember_served hI hm hmap hr hk (w := .byte) (by simp)
    exact settles_putByte hI hi hreach v
  | device r => exact callDevice_map hI.note hb' r _
  | failed => exact hb'

theorem settles_fetchWord (a : UInt32) (ha : a &&& 1 = 0) :
    Settles (fun (_, b') => I b'.map) (b.fetchWord h limit a) := by
  refine (settles_resolve hI hb .read a).bind ?_
  rintro ⟨s, b'⟩ ⟨hb', hmem⟩
  cases s with
  | memory r k =>
    obtain ⟨hk, m, hm, hmap, hr⟩ := hmem r k rfl
    obtain ⟨hi, hreach⟩ := remember_served hI hm hmap hr hk (w := .word) (fun _ => ha)
    obtain ⟨v, hv⟩ := Banks.readWord_ok hreach
    simp only [hv]
    exact hi
  | device r => exact callDevice_map hI.note hb' r _
  | failed => exact hb'

theorem settles_storeWord (a : UInt32) (ha : a &&& 1 = 0) (v : UInt16) :
    Settles (fun b' => I b'.map) (b.storeWord h limit a v) := by
  refine (settles_resolve hI hb .write a).bind ?_
  rintro ⟨s, b'⟩ ⟨hb', hmem⟩
  cases s with
  | memory r k =>
    obtain ⟨hk, m, hm, hmap, hr⟩ := hmem r k rfl
    obtain ⟨hi, hreach⟩ := remember_served hI hm hmap hr hk (w := .word) (fun _ => ha)
    exact (settles_putWord hI hi hreach v).imp fun _ hb' => hb'.1
  | device r => exact callDevice_map hI.note hb' r _
  | failed => exact hb'

theorem settles_readByte (a : UInt32) : Settles (fun (_, b') => I b'.map) (b.readByte h limit a) := by
  unfold readByte
  split
  · rename_i bank offset ht
    obtain ⟨v, hv⟩ := Banks.readByte_ok ((hI.sound hb).reaches_slot (d := .read) (w := .byte) ht)
    simp only [hv]
    exact hb
  · exact settles_fetchByte hI hb a

theorem settles_writeByte (a : UInt32) (v : UInt8) :
    Settles (fun b' => I b'.map) (b.writeByte h limit a v) := by
  unfold writeByte
  split
  · rename_i bank offset ht
    exact settles_putByte hI hb ((hI.sound hb).reaches_slot (d := .write) (w := .byte) ht) v
  · exact settles_storeByte hI hb a v

theorem settles_readWord (a : UInt32) : Settles (fun (_, b') => I b'.map) (b.readWord h limit a) := by
  unfold readWord
  split
  · rename_i bank offset ht
    obtain ⟨v, hv⟩ := Banks.readWord_ok ((hI.sound hb).reaches_slot (d := .read) (w := .word) ht)
    simp only [hv]
    exact hb
  · split
    · refine (settles_readByte hI hb a).bind fun ⟨_, b'⟩ hb' => ?_
      exact (settles_readByte hI hb' (a + 1)).bind fun _ hb'' => hb''
    · rename_i ha
      exact settles_fetchWord hI hb a (by simpa using ha)

theorem settles_writeWord (a : UInt32) (v : UInt16) :
    Settles (fun b' => I b'.map) (b.writeWord h limit a v) := by
  unfold writeWord
  split
  · rename_i bank offset ht
    have hreach := (hI.sound hb).reaches_slot (d := .write) (w := .word) ht
    exact (settles_putWord hI hb hreach v).imp fun _ hb' => hb'.1
  · split
    · exact (settles_writeByte hI hb a _).bind fun b' hb' => settles_writeByte hI hb' (a + 1) _
    · rename_i ha
      exact settles_storeWord hI hb a (by simpa using ha) v

theorem settles_readLong (a : UInt32) : Settles (fun (_, b') => I b'.map) (b.readLong h limit a) := by
  unfold readLong
  dsimp only
  split
  · rename_i bank offset bank' offset' ht ht'
    have hs := hI.sound hb
    obtain ⟨v, hv⟩ := Banks.readWord_ok (hs.reaches_slot (d := .read) (w := .word) ht)
    obtain ⟨u, hu⟩ := Banks.readWord_ok (hs.reaches_slot (d := .read) (w := .word) ht')
    simp only [hv, hu]
    exact hb
  · refine (settles_readWord hI hb a).bind fun ⟨_, b'⟩ hb' => ?_
    exact (settles_readWord hI hb' (a + 2)).bind fun _ hb'' => hb''

theorem settles_writeLong (a v : UInt32) : Settles (fun b' => I b'.map) (b.writeLong h limit a v) := by
  unfold writeLong
  dsimp only
  split
  · rename_i bank offset bank' offset' ht ht'
    have hreach := (hI.sound hb).reaches_slot (d := .write) (w := .word) ht
    have hreach' := (hI.sound hb).reaches_slot (d := .write) (w := .word) ht'
    refine (settles_putWord hI hb hreach _).bind fun b' ⟨hb', hsizes⟩ => ?_
    exact (settles_putWord hI hb' (by rwa [Banks.Reaches, hsizes]) _).imp fun _ hb'' => hb''.1
  · exact (settles_writeWord hI hb a _).bind fun b' hb' => settles_writeWord hI hb' (a + 2) _

end Bus

/-- Every access and every lookup keeps the invariant, and stays inside the banks. -/
theorem Operation.settles_access (hI : h.Keeps I) (hb : I b.map) {op : Operation}
    (hop : op.isAccess = true) :
    Settles (fun (_, b') => I b'.map) (op.perform (Bus.port h limit) b) := by
  cases op with
  | readByte a => exact (Bus.settles_readByte hI hb a).map fun _ hb' => hb'
  | readWord a => exact (Bus.settles_readWord hI hb a).map fun _ hb' => hb'
  | readLong a => exact (Bus.settles_readLong hI hb a).map fun _ hb' => hb'
  | writeByte a v => exact (Bus.settles_writeByte hI hb a v).map fun _ hb' => hb'
  | writeWord a v => exact (Bus.settles_writeWord hI hb a v).map fun _ hb' => hb'
  | writeLong a v => exact (Bus.settles_writeLong hI hb a v).map fun _ hb' => hb'
  | find a => exact hI.find a hb
  | _ => cases hop

theorem Operation.run_cons {p : Port σ} {op : Operation} {ops : List Operation} {answers : List Reply}
    {b' : Bus σ} (hrun : run p b (op :: ops) = .ok (answers, b')) : ∃ answer b₁ rest,
      op.perform p b = .ok (answer, b₁) ∧ run p b₁ ops = .ok (rest, b') ∧ answers = answer :: rest := by
  simp only [run, bind, Except.bind] at hrun
  cases hop : op.perform p b with
  | error e => simp [hop] at hrun
  | ok result =>
    obtain ⟨answer, b₁⟩ := result
    simp only [hop] at hrun
    cases hrest : run p b₁ ops with
    | error e => simp [hrest] at hrun
    | ok result =>
      obtain ⟨rest, b₂⟩ := result
      simp only [hrest, pure, Except.pure] at hrun
      obtain ⟨rfl, rfl⟩ := Prod.mk.inj (Except.ok.inj hrun)
      exact ⟨answer, b₁, rest, rfl, hrest, rfl⟩

/-- What every operation of a run keeps, the run keeps. -/
theorem Operation.settles_run {p : Port σ} {J : Bus σ → Prop} {ops : List Operation}
    (hstep : ∀ op ∈ ops, ∀ b, J b → Settles (fun (_, b') => J b') (op.perform p b)) (hb : J b) :
    Settles (fun (_, b') => J b') (run p b ops) := by
  induction ops generalizing b with
  | nil => exact hb
  | cons op ops ih =>
    refine (hstep op (by simp) b hb).bind fun (_, b') hb' => ?_
    exact (ih (fun op hop => hstep op (by simp [hop])) hb').bind fun _ hb'' => hb''

/-- What every operation of a completed run keeps, the run keeps. -/
theorem Operation.keeps_run {p : Port σ} {J : Bus σ → Prop} {b' : Bus σ} {ops : List Operation}
    {answers : List Reply}
    (hstep : ∀ op ∈ ops, ∀ b answer b', J b → op.perform p b = .ok (answer, b') → J b') (hb : J b)
    (hrun : run p b ops = .ok (answers, b')) : J b' := by
  induction ops generalizing b answers with
  | nil =>
    obtain ⟨-, rfl⟩ := Prod.mk.inj (Except.ok.inj hrun)
    exact hb
  | cons op ops ih =>
    obtain ⟨answer, b₁, rest, hop, hrest, -⟩ := run_cons hrun
    exact ih (fun op hop => hstep op (by simp [hop])) (hstep op (by simp) b answer b₁ hb hop) hrest

end MemoryBus
