import MemoryBus.Proofs.Bounds
import MemoryBus.Proofs.Uncached

/-! An access is a list of parts: bytes, and words at even addresses. -/
namespace MemoryBus

variable {σ : Type}

namespace Request

/-- A word at an odd address is two bytes. -/
def readWord (a : UInt32) : List Request :=
  if a &&& 1 ≠ 0 then [.read .byte a, .read .byte (a + 1)] else [.read .word a]

def writeWord (a : UInt32) (v : UInt16) : List Request :=
  if a &&& 1 ≠ 0 then
    [.write .byte a (BigEndian.wordHigh v).toUInt32,
      .write .byte (a + 1) (BigEndian.wordLow v).toUInt32]
  else [.write .word a v.toUInt32]

/-- Words are at even addresses. -/
def Aligned (q : Request) : Prop := q.width = .word → q.address &&& 1 = 0

theorem aligned_readWord (a : UInt32) : ∀ q ∈ readWord a, q.Aligned := by
  unfold readWord
  split <;> simp_all [Aligned, read]

theorem aligned_writeWord (a : UInt32) (v : UInt16) : ∀ q ∈ writeWord a v, q.Aligned := by
  unfold writeWord
  split <;> simp_all [Aligned, write]

@[simp] theorem readWord_ne_nil (a : UInt32) : readWord a ≠ [] := by
  unfold readWord
  split <;> simp

@[simp] theorem writeWord_ne_nil (a : UInt32) (v : UInt16) : writeWord a v ≠ [] := by
  unfold writeWord
  split <;> simp

end Request

/-- The parts of an access, highest first. -/
def Operation.parts : Operation → List Request
  | .readByte a => [.read .byte a]
  | .readWord a => Request.readWord a
  | .readLong a => Request.readWord a ++ Request.readWord (a + 2)
  | .writeByte a v => [.write .byte a v.toUInt32]
  | .writeWord a v => Request.writeWord a v
  | .writeLong a v =>
    Request.writeWord a (BigEndian.longHigh v) ++ Request.writeWord (a + 2) (BigEndian.longLow v)
  | _ => []

theorem Operation.aligned_parts (op : Operation) : ∀ q ∈ op.parts, q.Aligned := by
  cases op with
  | readByte a => simp [parts, Request.Aligned, Request.read]
  | writeByte a v => simp [parts, Request.Aligned, Request.write]
  | readWord a => exact Request.aligned_readWord a
  | writeWord a v => exact Request.aligned_writeWord a v
  | readLong a =>
    exact List.forall_mem_append.mpr ⟨Request.aligned_readWord _, Request.aligned_readWord _⟩
  | writeLong a v =>
    exact List.forall_mem_append.mpr ⟨Request.aligned_writeWord _ _, Request.aligned_writeWord _ _⟩
  | _ => simp [parts]

/-- The word that the values of its parts make up. A byte has the low 8 bits of its value, and a word
the low 16 bits. -/
def Request.wordOf : List UInt32 → UInt16
  | [v] => v.toUInt16
  | [high, low] => BigEndian.word high.toUInt8 low.toUInt8
  | _ => 0

/-- The long whose high word has the first `n` values. -/
def Request.longOf (n : Nat) (vs : List UInt32) : UInt32 :=
  BigEndian.long (wordOf (vs.take n)) (wordOf (vs.drop n))

/-- What an access answers when its parts have the values `vs`. -/
def Operation.reply (vs : List UInt32) : Operation → Reply
  | .readByte _ => .byte (vs.headD 0).toUInt8
  | .readWord _ => .word (Request.wordOf vs)
  | .readLong a => .long (Request.longOf (Request.readWord a).length vs)
  | _ => .done

/-- No odd address is known to a slot for words. -/
def MemoryMap.Aligned (m : MemoryMap) : Prop :=
  ∀ d a, a &&& 1 ≠ 0 → (m.slots.get d .word).translate a = none

theorem MemoryMap.aligned_of_filled {m : MemoryMap}
    (hm : ∀ d, (m.slots.get d .word).FilledFrom m.table d .word) : m.Aligned := by
  intro d a ha
  cases ht : (m.slots.get d .word).translate a with
  | none => rfl
  | some place =>
    obtain ⟨i, -, k, -, -, heven, -⟩ := (hm d).translate ht
    exact absurd (heven rfl) ha

theorem MemoryMap.Sound.aligned {m : MemoryMap} (hm : m.Sound) : m.Aligned :=
  aligned_of_filled fun d => hm.filled d .word

namespace Bus

section

variable (h : Handler σ) (limit : Nat)

/-- The slot does not know the address. -/
def Misses (b : Bus σ) (q : Request) : Prop :=
  (b.map.slots.get q.direction q.width).translate q.address = none

/-- Reads or writes a bank. A write answers zero. -/
def transfer (q : Request) (bank offset : Nat) (b : Bus σ) : Except Fault (UInt32 × Bus σ) :=
  match q.direction, q.width with
  | .read, .byte => (b.map.banks.readByte bank offset).map fun v => (v.toUInt32, b)
  | .read, .word => (b.map.banks.readWord bank offset).map fun v => (v.toUInt32, b)
  | .write, .byte => (b.putByte bank offset q.value.toUInt8).map fun b => (0, b)
  | .write, .word => (b.putWord bank offset q.value.toUInt16).map fun b => (0, b)

/-- One part of an access. The table is asked when the slot does not know the address, and then the
slot remembers a range that a bank serves. -/
def serve (q : Request) (b : Bus σ) : Except Fault (UInt32 × Bus σ) :=
  match (b.map.slots.get q.direction q.width).translate q.address with
  | some (bank, offset) => b.transfer q bank offset
  | none => do
    match ← b.resolve h q.direction q.address limit with
    | (.memory r k, b) =>
      (b.remember q.direction q.width r k).transfer q k.bank (k.offset q.address)
    | (.device r, b) => return b.callDevice h r q
    | (.failed, b) => return (0, b)

/-- Parts one after the other. -/
def serveAll (b : Bus σ) : List Request → Except Fault (Bus σ)
  | [] => .ok b
  | q :: qs => do
    let (_, b) ← b.serve h limit q
    b.serveAll qs

/-- The parts of an access, each with the bus on which it is made. -/
def visits : List Request → Bus σ → List (Request × Bus σ)
  | [], _ => []
  | q :: qs, b =>
    (q, b) :: match b.serve h limit q with
      | .ok (_, b') => visits qs b'
      | .error _ => []

/-- The same with the values of the parts. -/
def serveEach (b : Bus σ) : List Request → Except Fault (List UInt32 × Bus σ)
  | [] => .ok ([], b)
  | q :: qs => do
    let (v, b) ← b.serve h limit q
    let (vs, b) ← b.serveEach qs
    return (v :: vs, b)

end

variable {h : Handler σ} {limit : Nat} {I : MemoryMap → Prop} {b b' : Bus σ} {a : UInt32}
  {q : Request} {qs : List Request} {v : UInt32}

/-! The accesses of one part. -/

theorem map_serve {α : Type} (f : UInt32 × Bus σ → α) (q : Request) (b : Bus σ) :
    (b.serve h limit q).map f =
      match (b.map.slots.get q.direction q.width).translate q.address with
      | some (bank, offset) => (b.transfer q bank offset).map f
      | none => do
        match ← b.resolve h q.direction q.address limit with
        | (.memory r k, b) =>
          ((b.remember q.direction q.width r k).transfer q k.bank (k.offset q.address)).map f
        | (.device r, b) => return f (b.callDevice h r q)
        | (.failed, b) => return f (0, b) := by
  unfold serve
  split
  · rfl
  · cases b.resolve h q.direction q.address limit with
    | error e => rfl
    | ok result =>
      obtain ⟨s, b'⟩ := result
      cases s <;> rfl

theorem transfer_readByte (b : Bus σ) (a : UInt32) (bank offset : Nat) :
    (b.transfer (.read .byte a) bank offset).map (fun (v, b) => (v.toUInt8, b)) =
      (do return (← b.map.banks.readByte bank offset, b)) := by
  simp only [transfer, Request.read]
  cases b.map.banks.readByte bank offset <;> simp [Except.map, bind, Except.bind, pure, Except.pure]

theorem transfer_readWord (b : Bus σ) (a : UInt32) (bank offset : Nat) :
    (b.transfer (.read .word a) bank offset).map (fun (v, b) => (v.toUInt16, b)) =
      (do return (← b.map.banks.readWord bank offset, b)) := by
  simp only [transfer, Request.read]
  cases b.map.banks.readWord bank offset <;> simp [Except.map, bind, Except.bind, pure, Except.pure]

theorem transfer_writeByte (b : Bus σ) (a : UInt32) (v : UInt8) (bank offset : Nat) :
    (b.transfer (.write .byte a v.toUInt32) bank offset).map (·.2) = b.putByte bank offset v := by
  simp only [transfer, Request.write, UInt8.toUInt8_toUInt32]
  cases b.putByte bank offset v <;> rfl

theorem transfer_writeWord (b : Bus σ) (a : UInt32) (v : UInt16) (bank offset : Nat) :
    (b.transfer (.write .word a v.toUInt32) bank offset).map (·.2) = b.putWord bank offset v := by
  simp only [transfer, Request.write, UInt16.toUInt16_toUInt32]
  cases b.putWord bank offset v <;> rfl

theorem readByte_eq_serve (b : Bus σ) (a : UInt32) :
    b.readByte h limit a = (b.serve h limit (.read .byte a)).map fun (v, b) => (v.toUInt8, b) := by
  simp only [map_serve, transfer_readByte]
  rfl

theorem writeByte_eq_serve (b : Bus σ) (a : UInt32) (v : UInt8) :
    b.writeByte h limit a v = (b.serve h limit (.write .byte a v.toUInt32)).map (·.2) := by
  simp only [map_serve, transfer_writeByte]
  rfl

theorem readWord_eq_serve (b : Bus σ) (ha : a &&& 1 = 0) :
    b.readWord h limit a = (b.serve h limit (.read .word a)).map fun (v, b) => (v.toUInt16, b) := by
  simp only [map_serve, transfer_readWord]
  simp only [readWord, ha, ne_eq, not_true_eq_false, if_false]
  rfl

theorem writeWord_eq_serve (b : Bus σ) (ha : a &&& 1 = 0) (v : UInt16) :
    b.writeWord h limit a v = (b.serve h limit (.write .word a v.toUInt32)).map (·.2) := by
  simp only [map_serve, transfer_writeWord]
  simp only [writeWord, ha, ne_eq, not_true_eq_false, if_false]
  rfl

/-! Words at odd addresses. -/

theorem readWord_odd (hb : b.map.Aligned) (ha : a &&& 1 ≠ 0) : b.readWord h limit a = (do
    let (high, b) ← b.readByte h limit a
    let (low, b) ← b.readByte h limit (a + 1)
    return (BigEndian.word high low, b)) := by
  have hslot : b.map.slots.readWord.translate a = none := hb .read a ha
  simp only [readWord, hslot, ha, ne_eq, not_false_eq_true, if_true]

theorem writeWord_odd (hb : b.map.Aligned) (ha : a &&& 1 ≠ 0) (v : UInt16) :
    b.writeWord h limit a v = (do
      let b ← b.writeByte h limit a (BigEndian.wordHigh v)
      b.writeByte h limit (a + 1) (BigEndian.wordLow v)) := by
  have hslot : b.map.slots.writeWord.translate a = none := hb .write a ha
  simp only [writeWord, hslot, ha, ne_eq, not_false_eq_true, if_true]

/-! What the parts keep, the access keeps. -/

theorem writeByte_banks {m m' : MemoryMap} {bank offset : Nat} {v : UInt8}
    (hm : m.writeByte bank offset v = .ok m') :
    ∃ banks, banks.shape = m.banks.shape ∧ m' = { m with banks } := by
  unfold MemoryMap.writeByte at hm
  split at hm
  · exact ⟨_, Banks.shape_setByte v, (Except.ok.inj hm).symm⟩
  · cases hm

theorem writeWord_banks {m m' : MemoryMap} {bank offset : Nat} {v : UInt16}
    (hm : m.writeWord bank offset v = .ok m') :
    ∃ banks, banks.shape = m.banks.shape ∧ m' = { m with banks } := by
  simp only [MemoryMap.writeWord, bind, Except.bind] at hm
  split at hm
  · cases hm
  · rename_i m₁ hm₁
    obtain ⟨banks₁, hshape₁, rfl⟩ := writeByte_banks hm₁
    obtain ⟨banks, hshape, rfl⟩ := writeByte_banks hm
    exact ⟨banks, hshape.trans hshape₁, rfl⟩

theorem map_ok {ε α β : Type} {f : α → β} {x : Except ε α} {y : β} (hx : x.map f = .ok y) :
    ∃ v, x = .ok v ∧ f v = y := by
  cases x with
  | error e => cases hx
  | ok v => exact ⟨v, rfl, Except.ok.inj hx⟩

/-- A transfer changes nothing but the contents of the banks. -/
theorem transfer_banks {bank offset : Nat} (ht : b.transfer q bank offset = .ok (v, b')) :
    ∃ banks, banks.shape = b.map.banks.shape ∧ b' = { b with map := { b.map with banks } } := by
  unfold transfer at ht
  split at ht
  · obtain ⟨_, -, hv⟩ := map_ok ht
    obtain ⟨-, rfl⟩ := Prod.mk.inj hv
    exact ⟨_, rfl, rfl⟩
  · obtain ⟨_, -, hv⟩ := map_ok ht
    obtain ⟨-, rfl⟩ := Prod.mk.inj hv
    exact ⟨_, rfl, rfl⟩
  · obtain ⟨_, hput, hv⟩ := map_ok ht
    obtain ⟨-, rfl⟩ := Prod.mk.inj hv
    obtain ⟨_, hm, rfl⟩ := map_ok hput
    obtain ⟨banks, hshape, rfl⟩ := writeByte_banks hm
    exact ⟨banks, hshape, rfl⟩
  · obtain ⟨_, hput, hv⟩ := map_ok ht
    obtain ⟨-, rfl⟩ := Prod.mk.inj hv
    obtain ⟨_, hm, rfl⟩ := map_ok hput
    obtain ⟨banks, hshape, rfl⟩ := writeWord_banks hm
    exact ⟨banks, hshape, rfl⟩

theorem lasts_transfer (hI : MemoryMap.Lasting I) (hb : I b.map) {bank offset : Nat}
    (ht : b.transfer q bank offset = .ok (v, b')) : I b'.map := by
  obtain ⟨banks, hshape, rfl⟩ := transfer_banks ht
  exact hI.banks hb (Banks.sizes_of_shape hshape)

/-- How a part can end. -/
theorem serve_cases (hs : b.serve h limit q = .ok (v, b')) :
    (∃ bank offset, (b.map.slots.get q.direction q.width).translate q.address = some (bank, offset) ∧
        b.transfer q bank offset = .ok (v, b')) ∨
      (b.map.slots.get q.direction q.width).translate q.address = none ∧
        ((∃ r k b₁, b.resolve h q.direction q.address limit = .ok (.memory r k, b₁) ∧
            (b₁.remember q.direction q.width r k).transfer q k.bank (k.offset q.address) =
              .ok (v, b')) ∨
          (∃ r b₁, b.resolve h q.direction q.address limit = .ok (.device r, b₁) ∧
            b₁.callDevice h r q = (v, b')) ∨
          (b.resolve h q.direction q.address limit = .ok (.failed, b') ∧ v = 0)) := by
  unfold serve at hs
  split at hs
  · rename_i bank offset ht
    exact .inl ⟨bank, offset, ht, hs⟩
  · rename_i ht
    refine .inr ⟨ht, ?_⟩
    cases hr : b.resolve h q.direction q.address limit with
    | error e =>
      rw [hr] at hs
      cases hs
    | ok result =>
      rw [hr] at hs
      obtain ⟨s, b₁⟩ := result
      cases s with
      | memory r k => exact .inl ⟨r, k, b₁, rfl, hs⟩
      | device r => exact .inr (.inl ⟨r, b₁, rfl, Except.ok.inj hs⟩)
      | failed =>
        obtain ⟨rfl, rfl⟩ := Prod.mk.inj (Except.ok.inj hs)
        exact .inr (.inr ⟨rfl, rfl⟩)

/-- A resolution that ends at a bank has found an entry of the table in force. -/
theorem resolve_memory {d : Direction} {r : Range} {k : Backing}
    (hr : b.resolve h d a limit = .ok (.memory r k, b')) :
    r ∈ b'.map.table.entries ∧ r.owns a = true ∧ r.served d = some k := by
  have hall : h.Carries fun _ => True :=
    ⟨fun _ _ => trivial, fun _ _ _ => trivial, fun _ _ => trivial, fun _ _ => trivial,
      fun _ _ _ => trivial⟩
  have hres : Settles _ (b.resolve h d a limit) := settles_resolve_of_carries hall trivial d a
  rw [hr] at hres
  obtain ⟨-, hmem⟩ := hres
  obtain ⟨hk, m, -, hmap, rfl⟩ := hmem r k rfl
  have hentry := MemoryMap.entry_of_find m a
  rw [hmap, ← hentry]
  refine ⟨Table.mem_entries_of_served (hentry ▸ hk), ?_, hentry ▸ hk⟩
  rw [hentry]
  exact Table.range_owns_of_find

/-- The handler is told of range `r` on the bus `c` for one of the parts, which are made one after the other. -/
def TellsAmong (h : Handler σ) (limit : Nat) (qs : List Request) (b c : Bus σ) (r : Range) : Prop :=
  ∃ x ∈ visits h limit qs b, x.2.Misses x.1 ∧ Tells h x.1.direction x.1.address limit x.2 c r

theorem tellsAmong_first {c : Bus σ} {r : Range} (hmiss : b.Misses q)
    (hc : Tells h q.direction q.address limit b c r) : TellsAmong h limit (q :: qs) b c r :=
  ⟨(q, b), by simp [visits], hmiss, hc⟩

theorem tellsAmong_rest {c : Bus σ} {r : Range} (hs : b.serve h limit q = .ok (v, b'))
    (hc : TellsAmong h limit qs b' c r) : TellsAmong h limit (q :: qs) b c r := by
  obtain ⟨x, hx, hmiss, htells⟩ := hc
  exact ⟨x, by simp [visits, hs, hx], hmiss, htells⟩

/-- Where the handler keeps a property that lasts, a part keeps it. -/
theorem lasts_serve (hI : MemoryMap.Lasting I) (hb : I b.map) (hq : q.Aligned)
    (htold : b.Misses q → ∀ c r, Tells h q.direction q.address limit b c r →
      I c.map → I (h.notify c.state r c.map).map)
    (hs : b.serve h limit q = .ok (v, b')) : I b'.map := by
  rcases serve_cases hs with ⟨bank, offset, -, ht⟩ | ⟨hmiss, hend⟩
  · exact lasts_transfer hI hb ht
  · have hres : Settles _ (b.resolve h q.direction q.address limit) :=
      settles_resolve_of_told hI.find hI.note hb q.direction q.address (htold hmiss)
    rcases hend with ⟨r, k, b₁, hr, ht⟩ | ⟨r, b₁, hr, hcall⟩ | ⟨hr, -⟩
    · rw [hr] at hres
      obtain ⟨hk, m, hm, hmap, rfl⟩ := hres.2 r k rfl
      refine lasts_transfer hI ?_ ht
      simp only [remember, hmap]
      exact hI.fill hm hk hq
    · rw [hr] at hres
      obtain rfl : (b₁.callDevice h r q).2 = b' := congrArg Prod.snd hcall
      exact callDevice_map hI.note hres.1 r q
    · rw [hr] at hres
      exact hres.1

theorem carries_serve (hI : h.Carries I) (hb : I b.map) (hq : q.Aligned)
    (hs : b.serve h limit q = .ok (v, b')) : I b'.map :=
  lasts_serve hI.lasting hb hq (fun _ _ _ _ hc => hI.notify _ _ hc) hs

theorem serveEach_cons {vs : List UInt32} (hs : b.serveEach h limit (q :: qs) = .ok (vs, b')) :
    ∃ v b₁ rest, b.serve h limit q = .ok (v, b₁) ∧ b₁.serveEach h limit qs = .ok (rest, b') ∧
      vs = v :: rest := by
  simp only [serveEach, bind, Except.bind] at hs
  split at hs
  · cases hs
  · rename_i result hserve
    split at hs
    · cases hs
    · rename_i rest hrest
      obtain ⟨rfl, rfl⟩ := Prod.mk.inj (Except.ok.inj hs)
      exact ⟨_, _, _, hserve, hrest, rfl⟩

section

-- What the parts keep need not be a property of the map alone, and the handler has to do its share only where it
-- is told.
variable {J : Bus σ → Prop} {G : Bus σ → Range → Prop}

theorem holds_serveEach (hserve : ∀ {b b' : Bus σ} {q v}, J b → q.Aligned →
      (b.Misses q → ∀ c r, Tells h q.direction q.address limit b c r → G c r) →
        b.serve h limit q = .ok (v, b') → J b')
    (hb : J b) (hqs : ∀ q ∈ qs, q.Aligned) (htold : ∀ c r, TellsAmong h limit qs b c r → G c r) :
    (∀ x ∈ visits h limit qs b, J x.2) ∧ ∀ vs b', b.serveEach h limit qs = .ok (vs, b') → J b' := by
  induction qs generalizing b with
  | nil =>
    refine ⟨by simp [visits], ?_⟩
    rintro _ _ ⟨⟩
    exact hb
  | cons q qs ih =>
    cases hfirst : b.serve h limit q with
    | error e => simp [visits, serveEach, hfirst, hb, bind, Except.bind]
    | ok result =>
      obtain ⟨v, b₁⟩ := result
      have hb₁ : J b₁ := hserve hb (hqs q (by simp))
        (fun hmiss c r hc => htold c r (tellsAmong_first hmiss hc)) hfirst
      obtain ⟨hvisits, hend⟩ := ih hb₁ (fun q hq => hqs q (by simp [hq]))
        fun c r hc => htold c r (tellsAmong_rest hfirst hc)
      refine ⟨?_, fun vs b' heach => ?_⟩
      · simpa [visits, hfirst, hb] using hvisits
      · obtain ⟨_, _, rest, hfirst', heach', -⟩ := serveEach_cons heach
        obtain ⟨-, rfl⟩ := Prod.mk.inj (Except.ok.inj (hfirst.symm.trans hfirst'))
        exact hend rest b' heach'

theorem keeps_visits
    (hserve : ∀ {b b' : Bus σ} {q v}, J b → q.Aligned → b.serve h limit q = .ok (v, b') → J b') (hb : J b)
    (hqs : ∀ q ∈ qs, q.Aligned) : ∀ x ∈ visits h limit qs b, J x.2 :=
  (holds_serveEach (G := fun _ _ => True) (fun hb hq _ => hserve hb hq) hb hqs fun _ _ _ => trivial).1

end

theorem carries_serveAll (hI : h.Carries I) (hb : I b.map) (hqs : ∀ q ∈ qs, q.Aligned)
    (hs : b.serveAll h limit qs = .ok b') : I b'.map := by
  induction qs generalizing b with
  | nil => exact Except.ok.inj hs ▸ hb
  | cons q qs ih =>
    simp only [serveAll, bind, Except.bind] at hs
    split at hs
    · cases hs
    · rename_i result hserve
      have hb' := carries_serve hI hb (hqs q (by simp)) hserve
      exact ih hb' (fun q hq => hqs q (by simp [hq])) hs

/-! An access as its parts. -/

theorem map_value {α β γ : Type} (x : Except Fault (α × Bus σ)) (f : α → β) (g : β → γ) :
    ((x.map fun (v, b) => (f v, b)).map fun (v, b) => (g v, b)) = x.map fun (v, b) => (g (f v), b) := by
  cases x <;> rfl

theorem map_snd {α β : Type} (x : Except Fault (α × Bus σ)) (u : β) :
    ((x.map (·.2)).map fun b => (u, b)) = x.map fun (_, b) => (u, b) := by cases x <;> rfl

theorem serveEach_single (b : Bus σ) (q : Request) :
    b.serveEach h limit [q] = (b.serve h limit q).map fun (v, b) => ([v], b) := by
  simp only [serveEach, bind, Except.bind]
  cases b.serve h limit q <;> rfl

theorem serveEach_append (b : Bus σ) (qs qs' : List Request) :
    b.serveEach h limit (qs ++ qs') = (do
      let (vs, b) ← b.serveEach h limit qs
      let (vs', b) ← b.serveEach h limit qs'
      return (vs ++ vs', b)) := by
  induction qs generalizing b with
  | nil =>
    change b.serveEach h limit qs' = (b.serveEach h limit qs').bind fun (vs', b) => .ok (vs', b)
    cases b.serveEach h limit qs' <;> rfl
  | cons q qs ih =>
    simp only [List.cons_append, serveEach, ih, bind, Except.bind]
    cases b.serve h limit q with
    | error e => rfl
    | ok result =>
      obtain ⟨v, b₁⟩ := result
      simp only
      cases b₁.serveEach h limit qs with
      | error e => rfl
      | ok result =>
        obtain ⟨vs, b₂⟩ := result
        simp only [pure, Except.pure]
        cases b₂.serveEach h limit qs' <;> rfl

theorem serveAll_eq (b : Bus σ) (qs : List Request) :
    b.serveAll h limit qs = (b.serveEach h limit qs).map (·.2) := by
  induction qs generalizing b with
  | nil => rfl
  | cons q qs ih =>
    simp only [serveAll, serveEach, ih, bind, Except.bind]
    cases b.serve h limit q with
    | error e => rfl
    | ok result =>
      obtain ⟨v, b₁⟩ := result
      simp only
      cases b₁.serveEach h limit qs <;> rfl

theorem readWord_each (hb : b.map.Aligned) (a : UInt32) : b.readWord h limit a =
    (b.serveEach h limit (Request.readWord a)).map fun (vs, b) => (Request.wordOf vs, b) := by
  unfold Request.readWord
  split
  · rename_i ha
    rw [readWord_odd hb ha]
    simp only [readByte_eq_serve, serveEach, bind, Except.bind]
    cases b.serve h limit (.read .byte a) with
    | error e => rfl
    | ok high =>
      simp only [Except.map]
      cases high.2.serve h limit (.read .byte (a + 1)) <;> rfl
  · rename_i ha
    rw [readWord_eq_serve b (by simpa using ha), serveEach_single]
    cases b.serve h limit (.read .word a) <;> rfl

theorem writeWord_each (hb : b.map.Aligned) (a : UInt32) (v : UInt16) :
    b.writeWord h limit a v = (b.serveEach h limit (Request.writeWord a v)).map (·.2) := by
  unfold Request.writeWord
  split
  · rename_i ha
    rw [writeWord_odd hb ha]
    simp only [writeByte_eq_serve, serveEach, bind, Except.bind]
    cases b.serve h limit (.write .byte a (BigEndian.wordHigh v).toUInt32) with
    | error e => rfl
    | ok high =>
      simp only [Except.map]
      cases high.2.serve h limit (.write .byte (a + 1) (BigEndian.wordLow v).toUInt32) <;> rfl
  · rename_i ha
    rw [writeWord_eq_serve b (by simpa using ha), serveEach_single]
    cases b.serve h limit (.write .word a v.toUInt32) <;> rfl

theorem length_serveEach {vs : List UInt32} (hs : b.serveEach h limit qs = .ok (vs, b')) :
    vs.length = qs.length := by
  induction qs generalizing b vs with
  | nil =>
    obtain ⟨rfl, -⟩ := Prod.mk.inj (Except.ok.inj hs)
    rfl
  | cons q qs ih =>
    obtain ⟨_, _, rest, -, hrest, rfl⟩ := serveEach_cons hs
    exact congrArg (· + 1) (ih hrest)

/-- Parts that come after others are made on the bus that the others leave. -/
theorem mem_visits_append {vs : List UInt32} {qs' : List Request} {x : Request × Bus σ}
    (hs : b.serveEach h limit qs = .ok (vs, b')) (hx : x ∈ visits h limit qs' b') :
    x ∈ visits h limit (qs ++ qs') b := by
  induction qs generalizing b vs with
  | nil =>
    obtain ⟨-, rfl⟩ := Prod.mk.inj (Except.ok.inj hs)
    exact hx
  | cons q qs ih =>
    obtain ⟨_, _, rest, hserve, hrest, -⟩ := serveEach_cons hs
    simp only [List.cons_append, visits, hserve, List.mem_cons]
    exact .inr (ih hrest)

theorem mem_visits (h : Handler σ) (limit : Nat) (b : Bus σ) {qs : List Request} (hqs : qs ≠ []) :
    ∃ q, (q, b) ∈ visits h limit qs b := by
  cases qs with
  | nil => exact absurd rfl hqs
  | cons q qs => exact ⟨q, by simp [visits]⟩

theorem readLong_each (a : UInt32) (haligned : ∀ x ∈
    visits h limit (Request.readWord a ++ Request.readWord (a + 2)) b, x.2.map.Aligned) :
    b.readLong h limit a =
      (b.serveEach h limit (Request.readWord a ++ Request.readWord (a + 2))).map fun (vs, b) =>
        (Request.longOf (Request.readWord a).length vs, b) := by
  obtain ⟨q, hq⟩ := mem_visits h limit b
    (List.append_ne_nil_of_left_ne_nil (Request.readWord_ne_nil a) (Request.readWord (a + 2)))
  rw [readLong_eq, serveEach_append, readWord_each (haligned _ hq) a]
  cases hhigh : b.serveEach h limit (Request.readWord a) with
  | error e => rfl
  | ok result =>
    obtain ⟨vs, b₁⟩ := result
    obtain ⟨q', hq'⟩ := mem_visits h limit b₁ (Request.readWord_ne_nil (a + 2))
    have hb₁ : b₁.map.Aligned := haligned _ (mem_visits_append hhigh hq')
    simp only [Except.map, bind, Except.bind, readWord_each hb₁]
    cases b₁.serveEach h limit (Request.readWord (a + 2)) with
    | error e => rfl
    | ok result =>
      simp only [pure, Except.pure, Request.longOf, ← length_serveEach hhigh, List.take_left, List.drop_left]

theorem writeLong_each (a v : UInt32) (haligned : ∀ x ∈ visits h limit
    (Request.writeWord a (BigEndian.longHigh v) ++ Request.writeWord (a + 2) (BigEndian.longLow v)) b,
      x.2.map.Aligned) :
    b.writeLong h limit a v = (b.serveEach h limit
      (Request.writeWord a (BigEndian.longHigh v) ++
        Request.writeWord (a + 2) (BigEndian.longLow v))).map (·.2) := by
  obtain ⟨q, hq⟩ := mem_visits h limit b (List.append_ne_nil_of_left_ne_nil
    (Request.writeWord_ne_nil a (BigEndian.longHigh v)) (Request.writeWord (a + 2) (BigEndian.longLow v)))
  rw [writeLong_eq, serveEach_append, writeWord_each (haligned _ hq) a]
  cases hhigh : b.serveEach h limit (Request.writeWord a (BigEndian.longHigh v)) with
  | error e => rfl
  | ok result =>
    obtain ⟨vs, b₁⟩ := result
    obtain ⟨q', hq'⟩ := mem_visits h limit b₁
      (Request.writeWord_ne_nil (a + 2) (BigEndian.longLow v))
    have hb₁ : b₁.map.Aligned := haligned _ (mem_visits_append hhigh hq')
    simp only [Except.map, bind, Except.bind, writeWord_each hb₁]
    cases b₁.serveEach h limit (Request.writeWord (a + 2) (BigEndian.longLow v)) <;> rfl

end Bus

variable {h : Handler σ} {limit : Nat} {I : MemoryMap → Prop} {b b' : Bus σ} {op : Operation}

/-- An access of one part is that part. -/
theorem Operation.perform_part {q : Request} (hop : op.parts = [q]) : op.perform (Bus.port h limit) b =
    (b.serve h limit q).map fun (v, b) => (op.reply [v], b) := by
  have hwide {qs qs' : List Request} (hqs : qs ≠ []) (hqs' : qs' ≠ []) : qs ++ qs' ≠ [q] := by
    intro heq
    rcases List.append_eq_singleton_iff.mp heq with ⟨hnil, -⟩ | ⟨-, hnil⟩
    · exact hqs hnil
    · exact hqs' hnil
  cases op with
  | readByte a =>
    obtain rfl := List.singleton_inj.mp hop
    exact (congrArg _ (Bus.readByte_eq_serve b a)).trans (Bus.map_value _ _ _)
  | writeByte a v =>
    obtain rfl := List.singleton_inj.mp hop
    exact (congrArg _ (Bus.writeByte_eq_serve b a v)).trans (Bus.map_snd _ _)
  | readWord a =>
    simp only [parts, Request.readWord] at hop
    split at hop
    · simp at hop
    · rename_i ha
      obtain rfl := List.singleton_inj.mp hop
      exact (congrArg _ (Bus.readWord_eq_serve b (by simpa using ha))).trans (Bus.map_value _ _ _)
  | writeWord a v =>
    simp only [parts, Request.writeWord] at hop
    split at hop
    · simp at hop
    · rename_i ha
      obtain rfl := List.singleton_inj.mp hop
      exact (congrArg _ (Bus.writeWord_eq_serve b (by simpa using ha) v)).trans (Bus.map_snd _ _)
  | readLong a => exact absurd hop (hwide (Request.readWord_ne_nil _) (Request.readWord_ne_nil _))
  | writeLong a v =>
    exact absurd hop (hwide (Request.writeWord_ne_nil _ _) (Request.writeWord_ne_nil _ _))
  | _ => cases hop

/-- An access answers what the values of its parts make up, and leaves the bus as its parts leave it. -/
theorem Operation.perform_visits (haligned : ∀ x ∈ Bus.visits h limit op.parts b, x.2.map.Aligned)
    (hop : op.parts ≠ []) : op.perform (Bus.port h limit) b =
      (b.serveEach h limit op.parts).map fun (vs, b) => (op.reply vs, b) := by
  have hpart {q : Request} (hq : op.parts = [q]) : op.perform (Bus.port h limit) b =
      (b.serveEach h limit op.parts).map fun (vs, b) => (op.reply vs, b) := by
    rw [perform_part hq, hq, Bus.serveEach_single]
    exact (Bus.map_value _ (fun v => [v]) (op.reply ·)).symm
  obtain ⟨q, hq⟩ := Bus.mem_visits h limit b hop
  have hb : b.map.Aligned := haligned _ hq
  cases op with
  | readByte a => exact hpart rfl
  | writeByte a v => exact hpart rfl
  | readWord a =>
    have hread : b.readWord h limit a = _ := Bus.readWord_each hb a
    exact (congrArg (Except.map _) hread).trans (Bus.map_value _ _ Reply.word)
  | writeWord a v => exact (congrArg _ (Bus.writeWord_each hb a v)).trans (Bus.map_snd _ _)
  | readLong a =>
    have hread := Bus.readLong_each a haligned
    exact (congrArg (Except.map _) hread).trans (Bus.map_value _ _ Reply.long)
  | writeLong a v => exact (congrArg _ (Bus.writeLong_each a v haligned)).trans (Bus.map_snd _ _)
  | _ => exact absurd rfl hop

theorem Operation.perform_each {J : Bus σ → Prop}
    (hJ : ∀ {b b' : Bus σ} {q v}, J b → q.Aligned → b.serve h limit q = .ok (v, b') → J b')
    (haligned : ∀ {b}, J b → b.map.Aligned) (hb : J b) (hop : op.parts ≠ []) :
    op.perform (Bus.port h limit) b =
      (b.serveEach h limit op.parts).map fun (vs, b) => (op.reply vs, b) :=
  perform_visits (fun x hx => haligned (Bus.keeps_visits hJ hb op.aligned_parts x hx)) hop

/-- An access leaves the bus as its parts leave it. -/
theorem Operation.perform_parts (hI : h.Carries I) (haligned : ∀ {m}, I m → m.Aligned)
    (hb : I b.map) (hop : op.parts ≠ []) :
    (op.perform (Bus.port h limit) b).map (·.2) = b.serveAll h limit op.parts := by
  rw [Bus.serveAll_eq, perform_each (J := fun b => I b.map) (Bus.carries_serve hI) haligned hb hop]
  cases b.serveEach h limit op.parts <;> rfl

theorem Operation.parts_ne_nil (hop : op.isAccess = true) : (∃ a, op = .find a) ∨ op.parts ≠ [] := by
  cases op with
  | find a => exact .inl ⟨a, rfl⟩
  | _ => exact .inr (by simp_all [parts, isAccess])

/-- What the parts and the changes of a map keep, every operation keeps that installs only tables with
property `P`. -/
theorem Operation.carries_perform {P : Table → Prop} (hI : h.Carries I)
    (haligned : ∀ {m}, I m → m.Aligned) (hchange : ∀ {m m'}, I m → Change P m m' → I m')
    (hstats : ∀ {m}, I m → I m.resetStats) (htable : ∀ {m}, I m → P m.table)
    (hop : ∀ t, op = .install t → P t) (hb : I b.map) {answer : Reply}
    (hperform : op.perform (Bus.port h limit) b = .ok (answer, b')) : I b'.map := by
  cases haccess : op.isAccess with
  | true =>
    obtain ⟨a, rfl⟩ | hparts := parts_ne_nil haccess
    · obtain rfl : (b.find a).2 = b' := congrArg Prod.snd (Except.ok.inj hperform)
      exact hI.find a hb
    · have hall : (op.perform (Bus.port h limit) b).map (·.2) = _ :=
        perform_parts hI haligned hb hparts
      rw [hperform] at hall
      exact Bus.carries_serveAll hI hb op.aligned_parts hall.symm
  | false =>
    obtain ⟨answer', b₁, hother, hb₁⟩ :=
      perform_change (p := Bus.port h limit) hchange hstats htable hop hb haccess
    obtain rfl : b₁ = b' := congrArg Prod.snd (Except.ok.inj (hother.symm.trans hperform))
    exact hb₁

end MemoryBus
