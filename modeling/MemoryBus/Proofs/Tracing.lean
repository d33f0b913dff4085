import MemoryBus.Proofs.Serving

/-! Every access of the trace is served, on the Mac Plus with the demonstration machine. -/
namespace MemoryBus

variable {σ : Type} {h : Handler σ} {limit : Nat}

namespace Trace

variable {t t' : Trace} {a x : UInt32}

/-- The accesses of an iteration. -/
def accesses (t : Trace) : List Operation :=
  .readWord t.pc :: match activity t.draw with
    | .push => [.writeLong (pushed t.sp) t.draw]
    | .peek => [.readLong t.sp]
    | .heap => [.writeByte (heapAddress t.draw) t.draw.toUInt8, .readWord (heapAddress t.draw)]
    | .pollTimer => [.readByte timerAddress]
    | .expansion => [.readWord (expansionAddress t.draw)]
    | .pollSerial => [.writeByte serialAddress t.draw.toUInt8]

/-- Where the trace stands after an iteration, whatever its accesses met. -/
def next (t : Trace) : Trace where
  seed := t.draw
  pc := t.nextPc
  sp := if activity t.draw = .push then pushed t.sp else t.sp

/-- An iteration makes its accesses. -/
theorem step_eq (h : Handler σ) (limit : Nat) (t : Trace) (b : Bus σ) : t.step h limit b =
    (Operation.run (Bus.port h limit) b t.accesses).map fun (_, b) => (t.next, b) := by
  -- What is drawn does not matter, and is not to be computed.
  obtain ⟨r, hr⟩ : ∃ r, t.draw = r := ⟨_, rfl⟩
  unfold step accesses next
  rw [hr]
  simp only [Operation.run, Operation.perform, Bus.port, bind, Except.bind, Except.map]
  cases b.readWord h limit t.pc with
  | error e => rfl
  | ok fetched =>
    obtain ⟨v, b⟩ := fetched
    cases hk : activity r <;> simp only [Operation.run, Operation.perform, Except.map, bind, Except.bind]
    case push => cases b.writeLong h limit (pushed t.sp) r <;> rfl
    case peek => cases b.readLong h limit t.sp <;> rfl
    case heap =>
      cases b.writeByte h limit (heapAddress r) r.toUInt8 with
      | error e => rfl
      | ok b =>
        dsimp only
        cases b.readWord h limit (heapAddress r) <;> rfl
    case pollTimer => cases b.readByte h limit timerAddress <;> rfl
    case expansion => cases b.readWord h limit (expansionAddress r) <;> rfl
    case pollSerial => cases b.writeByte h limit serialAddress r.toUInt8 <;> rfl

/-- Bits that a mask keeps away do not matter. -/
theorem or_and_and_eq {v m n : UInt32} (hm : m &&& n = 0) (x : UInt32) : (v ||| x &&& m) &&& n = v &&& n := by
  rw [or_and_distrib, UInt32.and_assoc, hm, UInt32.and_zero, UInt32.or_zero]

theorem ram_owns (ha : a.toNat < 0x400000) : Demo.ram.owns a = true := by
  have hnone : a &&& 0x00C00000 = 0 := by
    apply UInt32.toNat_inj.mp
    rw [UInt32.toNat_and]
    refine Nat.eq_of_testBit_eq fun i => ?_
    have hmask : (0x00C00000 : UInt32).toNat = 2 ^ 22 * 3 := rfl
    rw [Nat.testBit_and, hmask, Nat.testBit_two_pow_mul]
    by_cases hi : 22 ≤ i
    · have hlt : a.toNat < 2 ^ i := Nat.lt_of_lt_of_le ha (Nat.pow_le_pow_right Nat.two_pos hi)
      simp [Nat.testBit_lt_two_pow hlt]
    · simp [hi]
  simp [Range.owns, Demo.ram, hnone]

theorem even_add_two (ha : a &&& 1 = 0) : (a + 2) &&& 1 = 0 := by
  have hmod := Backing.and_one_toNat a
  rw [ha] at hmod
  apply UInt32.toNat_inj.mp
  rw [Backing.and_one_toNat, UInt32.toNat_add]
  simp at hmod ⊢
  omega

/-- The program stays in the ROM and the stack in the RAM, at even addresses. -/
structure Inside (t : Trace) : Prop where
  pc_even : t.pc &&& 1 = 0
  pc_rom : Demo.rom.owns t.pc = true
  sp_even : t.sp &&& 1 = 0
  sp_low : t.sp.toNat < 0x10000

theorem inside_start : start.Inside := ⟨by decide, by decide, by decide, by decide⟩

theorem pushed_even (sp : UInt32) : pushed sp &&& 1 = 0 := by
  rw [pushed, or_and_and_eq (by decide)]
  decide

theorem pushed_low (sp : UInt32) : (pushed sp).toNat < 0x10000 := by
  have hand : ((sp - 4) &&& 0x0FFC).toNat < 2 ^ 16 := by
    rw [UInt32.toNat_and]
    exact Nat.lt_of_le_of_lt Nat.and_le_right (by decide)
  rw [pushed, UInt32.toNat_or]
  exact Nat.or_lt_two_pow (by decide) hand

theorem Inside.next (ht : t.Inside) : t.next.Inside where
  pc_even := by
    rw [Trace.next, nextPc, or_and_and_eq (by decide)]
    decide
  pc_rom := by
    rw [Trace.next, nextPc, Range.owns, Demo.rom, or_and_and_eq (by decide)]
    decide
  sp_even := by
    unfold Trace.next
    split
    · exact pushed_even t.sp
    · exact ht.sp_even
  sp_low := by
    unfold Trace.next
    split
    · exact pushed_low t.sp
    · exact ht.sp_low

theorem heapAddress_low (r : UInt32) : (heapAddress r).toNat < 0x400000 :=
  Nat.lt_of_le_of_lt (Backing.and_toNat_le _ _) (by decide)

theorem expansion_owns (r : UInt32) : (Demo.expansion true).owns (expansionAddress r) = true := by
  rw [expansionAddress, Range.owns, Demo.expansion, if_pos rfl, or_and_and_eq (by decide)]
  decide

theorem expansionAddress_even (r : UInt32) : expansionAddress r &&& 1 = 0 := by
  rw [expansionAddress, or_and_and_eq (by decide)]
  decide

end Trace

namespace Demo

open Trace

variable {a v : UInt32} {t : Trace} {op : Operation} {q q' : Request} {x : Bool}

theorem uses_part (hparts : op.parts = [q]) (hask : Asks q x) : Uses op x := by
  rw [Uses, hparts]
  exact ⟨by simp, by simpa using hask⟩

theorem uses_parts (hparts : op.parts = [q, q']) (hask : Asks q x) (hask' : Asks q' x) : Uses op x := by
  rw [Uses, hparts]
  exact ⟨by simp, by simpa using ⟨hask, hask'⟩⟩

theorem parts_readWord (ha : a &&& 1 = 0) : (Operation.readWord a).parts = [.read .word a] := by
  simp [Operation.parts, Request.readWord, ha]

/-- A long word of the stack is two words of the RAM. -/
theorem ram_owns_long (ha : a.toNat < 0x10000) : ram.owns a = true ∧ ram.owns (a + 2) = true := by
  have hlow : (a + 2).toNat < 0x400000 := by
    rw [UInt32.toNat_add]
    simp
    omega
  exact ⟨ram_owns (by omega), ram_owns hlow⟩

theorem uses_readLong (heven : a &&& 1 = 0) (ha : a.toNat < 0x10000) : Uses (.readLong a) false := by
  obtain ⟨hhigh, hlow⟩ := ram_owns_long ha
  have hparts : (Operation.readLong a).parts = [.read .word a, .read .word (a + 2)] := by
    simp [Operation.parts, Request.readWord, heven, even_add_two heven]
  exact uses_parts hparts (.ram hhigh) (.ram hlow)

theorem uses_writeLong (heven : a &&& 1 = 0) (ha : a.toNat < 0x10000) (v : UInt32) :
    Uses (.writeLong a v) false := by
  obtain ⟨hhigh, hlow⟩ := ram_owns_long ha
  have hparts : (Operation.writeLong a v).parts =
      [.write .word a (BigEndian.longHigh v).toUInt32, .write .word (a + 2) (BigEndian.longLow v).toUInt32] := by
    simp [Operation.parts, Request.writeWord, heven, even_add_two heven]
  exact uses_parts hparts (.ram hhigh) (.ram hlow)

/-- An odd word at the top of the RAM has its low byte in the ROM. -/
theorem uses_readWord_low (ha : a.toNat < 0x400000) : Uses (.readWord a) false := by
  by_cases heven : a &&& 1 = 0
  · exact uses_part (parts_readWord heven) (.ram (ram_owns ha))
  · have hparts : (Operation.readWord a).parts = [.read .byte a, .read .byte (a + 1)] := by
      simp [Operation.parts, Request.readWord, heven]
    refine uses_parts hparts (.ram (ram_owns ha)) ?_
    have hadd : (a + 1).toNat = a.toNat + 1 := by
      rw [UInt32.toNat_add]
      simp
      omega
    by_cases htop : a.toNat + 1 = 0x400000
    · have hrom : a + 1 = 0x400000 := UInt32.toNat_inj.mp (hadd.trans htop)
      exact .rom rfl (by rw [Request.read, hrom]; decide)
    · have hlow : (a + 1).toNat < 0x400000 := by omega
      exact .ram (ram_owns hlow)

end Demo

namespace Trace

/-- Each access of an iteration is served, and one of them touches the expansion window or none. -/
theorem Inside.uses {t : Trace} (ht : t.Inside) : ∃ xs, List.Forall₂ Demo.Uses t.accesses xs ∧
    (xs.or = true ↔ activity t.draw = .expansion) := by
  have hfetch : Demo.Uses (.readWord t.pc) false :=
    Demo.uses_part (Demo.parts_readWord ht.pc_even) (.rom rfl ht.pc_rom)
  obtain ⟨r, hr⟩ : ∃ r, t.draw = r := ⟨_, rfl⟩
  unfold accesses
  rw [hr]
  cases activity r with
  | push =>
    have hpush := Demo.uses_writeLong (pushed_even t.sp) (pushed_low t.sp) r
    exact ⟨[false, false], .cons hfetch (.cons hpush .nil), by simp⟩
  | peek =>
    have hpeek := Demo.uses_readLong ht.sp_even ht.sp_low
    exact ⟨[false, false], .cons hfetch (.cons hpeek .nil), by simp⟩
  | heap =>
    have hlow := heapAddress_low r
    have hwrite : Demo.Uses (.writeByte (heapAddress r) r.toUInt8) false :=
      Demo.uses_part rfl (.ram (ram_owns hlow))
    exact ⟨[false, false, false], .cons hfetch (.cons hwrite (.cons (Demo.uses_readWord_low hlow) .nil)), by simp⟩
  | pollTimer => exact ⟨[false, false], .cons hfetch (.cons (Demo.uses_part rfl .timer) .nil), by simp⟩
  | expansion =>
    have hparts := Demo.parts_readWord (expansionAddress_even r)
    have hread := Demo.uses_part hparts (.expansion rfl (expansion_owns r))
    exact ⟨[false, true], .cons hfetch (.cons hread .nil), by simp⟩
  | pollSerial => exact ⟨[false, false], .cons hfetch (.cons (Demo.uses_part rfl (.serial _)) .nil), by simp⟩

/-- The bus with its line of progress, where one is due. -/
def mark (total remaining : Nat) (b : Bus σ) : Bus σ :=
  let done := total - remaining
  if done ≠ 0 ∧ done % max (total / 10) 1 = 0 then b.note (progress done total b) else b

theorem iterate_succ (h : Handler σ) (limit total remaining : Nat) (t : Trace) (b : Bus σ) :
    iterate h limit total (remaining + 1) t b = (do
      let (t, b) ← t.step h limit (mark total (remaining + 1) b)
      iterate h limit total remaining t b) := rfl

/-- The bus at some moment of the iterations that remain: at their start, after some of the accesses of the first
of them, or later. -/
inductive Passes (h : Handler σ) (limit total : Nat) : Nat → Trace → Bus σ → Bus σ → Prop
  | start {remaining : Nat} {t : Trace} {b : Bus σ} : Passes h limit total remaining t b b
  | access {remaining : Nat} {t : Trace} {b b' : Bus σ} {answers : List Operation.Reply} (k : Nat) :
    Operation.run (Bus.port h limit) (mark total (remaining + 1) b) (t.accesses.take k) = .ok (answers, b') →
      Passes h limit total (remaining + 1) t b b'
  | later {remaining : Nat} {t t' : Trace} {b b₁ b' : Bus σ} :
    t.step h limit (mark total (remaining + 1) b) = .ok (t', b₁) → Passes h limit total remaining t' b₁ b' →
      Passes h limit total (remaining + 1) t b b'

variable {total remaining n : Nat} {t t' : Trace} {b b' : Bus σ}

/-- One of the next `n` iterations touches the expansion window. -/
def Touches (t : Trace) (n : Nat) : Prop := ∃ i < n, activity (next^[i] t).draw = .expansion

theorem touches_succ : t.Touches (n + 1) ↔ activity t.draw = .expansion ∨ t.next.Touches n := by
  constructor
  · rintro ⟨i, hi, hdraw⟩
    cases i with
    | zero => exact .inl hdraw
    | succ i =>
      rw [Function.iterate_succ_apply] at hdraw
      exact .inr ⟨i, Nat.lt_of_succ_lt_succ hi, hdraw⟩
  · rintro (hdraw | ⟨i, hi, hdraw⟩)
    · exact ⟨0, Nat.succ_pos n, hdraw⟩
    · rw [← Function.iterate_succ_apply next] at hdraw
      exact ⟨i + 1, Nat.succ_lt_succ hi, hdraw⟩

theorem not_touches_zero : ¬ t.Touches 0 := fun ⟨_, hi, _⟩ => Nat.not_lt_zero _ hi

end Trace

namespace Demo

open Trace

variable {banks : Banks} {isMapped : Bool} {total remaining : Nat} {t : Trace} {b b' : Bus Demo}

theorem Steady.mark (hb : Steady banks isMapped b) (total remaining : Nat) :
    Steady banks isMapped (Trace.mark total remaining b) := by
  unfold Trace.mark
  dsimp only
  split
  · have hsound : (b.note (progress (total - remaining) total b)).map.Sound :=
      hb.sound.of_same rfl rfl List.prefix_rfl
    refine hb.silent ⟨hsound, rfl, rfl, rfl, rfl, fun r q v hcall => ?_⟩ fun _ _ => rfl
    exact (List.mem_cons.mp hcall).resolve_left (by simp [progress])
  · exact hb

theorem Steady.step (hb : Steady banks isMapped b) (ht : t.Inside) (hlimit : Demo.limit ≤ limit) :
    ∃ x b', t.step handler limit b = .ok (t.next, b') ∧ Steady banks (isMapped || x) b' ∧
      (x = true ↔ activity t.draw = .expansion) := by
  obtain ⟨xs, huses, hxs⟩ := ht.uses
  obtain ⟨answers, b', hrun, hb'⟩ := hb.run huses hlimit
  refine ⟨xs.or, b', ?_, hb', hxs⟩
  rw [step_eq, hrun]
  rfl

/-- The trace runs to its end. -/
theorem Steady.iterate (hb : Steady banks isMapped b) (ht : t.Inside) (hlimit : Demo.limit ≤ limit)
    (total remaining : Nat) :
    ∃ x b', Trace.iterate handler limit total remaining t b = .ok b' ∧ Steady banks (isMapped || x) b' ∧
      (x = true ↔ t.Touches remaining) := by
  induction remaining generalizing t b isMapped with
  | zero => exact ⟨false, b, rfl, by simpa using hb, by simp [not_touches_zero]⟩
  | succ remaining ih =>
    obtain ⟨x, b₁, hstep, hb₁, hx⟩ := (hb.mark total (remaining + 1)).step ht hlimit
    obtain ⟨y, b', hrest, hb', hy⟩ := ih hb₁ ht.next
    refine ⟨x || y, b', ?_, Bool.or_assoc .. ▸ hb', ?_⟩
    · rw [iterate_succ, hstep]
      exact hrest
    · rw [touches_succ, Bool.or_eq_true, hx, hy]

/-- And the machine is steady at every moment of it. -/
theorem Steady.passes (hb : Steady banks isMapped b) (ht : t.Inside) (hlimit : Demo.limit ≤ limit)
    (hp : Passes handler limit total remaining t b b') : ∃ isMapped', Steady banks isMapped' b' := by
  induction hp generalizing isMapped with
  | start => exact ⟨isMapped, hb⟩
  | access k hrun =>
    obtain ⟨xs, huses, -⟩ := ht.uses
    obtain ⟨answers, b', hrun', hb'⟩ := (hb.mark total _).run (List.forall₂_take k huses) hlimit
    obtain ⟨-, rfl⟩ := Prod.mk.inj (Except.ok.inj (hrun.symm.trans hrun'))
    exact ⟨_, hb'⟩
  | later hstep _ ih =>
    obtain ⟨x, b₁, hstep', hb₁, -⟩ := (hb.mark total _).step ht hlimit
    obtain ⟨rfl, rfl⟩ := Prod.mk.inj (Except.ok.inj (hstep.symm.trans hstep'))
    exact ih hb₁ ht.next

/-- The names tell the ROM and the expansion bank from the first. -/
theorem pos_of_name {i : Nat} {name : String} (hs : banks.shape = shape) (hi : banks.name? i = some name)
    (hname : name = "rom" ∨ name = "expansion") : 0 < i := by
  refine Nat.pos_of_ne_zero fun hzero => ?_
  have hfirst : banks.name? 0 = (shape[0]?).map (·.1) := by
    rw [← hs]
    simp [Banks.name?, Banks.shape]
    rfl
  rw [hzero, hfirst] at hi
  obtain rfl := Option.some.inj hi
  revert hname
  decide

end Demo

namespace Trace

/-- On the Mac Plus with the demonstration machine the trace runs to its end, whatever its length and the contents
of the banks. No access fails, the window is mapped when it is first touched, only the timer is read and only the
serial controller written, and the ROM and the expansion bank keep their contents. -/
theorem run_macPlus {banks : Banks} (hs : banks.shape = Layout.macPlus.banks.map fun k => (k.name, k.size))
    (hlimit : Demo.limit ≤ limit) (n : Nat) :
    ∃ m b, Demo.remap .macPlus (.ofBanks banks) = .ok m ∧
      run Demo.handler limit n (.attach Demo.handler m (.ofLayout .macPlus)) = .ok b ∧
      b.dispatch.failed = 0 ∧ b.dispatch.rejected = 0 ∧ b.dispatch.notifications ≤ 1 ∧
      (b.dispatch.notifications = 1 ↔ ∃ i < n, activity (next^[i] start).draw = .expansion) ∧
      (∀ r q v, .deviceCalled r q v ∈ b.map.journal →
        r.tag = Tag.via.number ∧ q.direction = .read ∨ r.tag = Tag.scc.number ∧ q.direction = .write) ∧
      ∀ b', Passes Demo.handler limit n n start (.attach Demo.handler m (.ofLayout .macPlus)) b' →
        ∀ i name, banks.name? i = some name → name = "rom" ∨ name = "expansion" →
          b'.map.banks.bytes? i = banks.bytes? i := by
  obtain ⟨m, hremap, hstart⟩ := Demo.exists_start hs
  obtain ⟨x, b, hrun, hb, hx⟩ := hstart.iterate inside_start hlimit n n
  rw [Bool.false_or] at hb
  obtain ⟨calls, hdispatch⟩ := hb.dispatch
  refine ⟨m, b, hremap, hrun, ?_, ?_, ?_, ?_, ?_, ?_⟩
  · rw [hdispatch]
  · rw [hdispatch]
  · rw [hdispatch]
    exact Bool.toNat_le x
  · rw [hdispatch]
    exact Bool.toNat_eq_one.trans hx
  · intro r q v hcall
    cases hb.calls r q v hcall with
    | timer => exact .inl ⟨rfl, rfl⟩
    | serial => exact .inr ⟨rfl, rfl⟩
  · intro b' hpasses i name hi hname
    obtain ⟨_, hb'⟩ := hstart.passes inside_start hlimit hpasses
    exact hb'.kept i (Demo.pos_of_name hs hi hname)

/-- Six iterations map the window. -/
theorem run_macPlus_six : ∃ s m b, Layout.macPlus.buildBanks = .ok s ∧
    s.shape = (Layout.macPlus.banks.map fun k => (k.name, k.size)) ∧ Demo.remap .macPlus (.ofBanks s) = .ok m ∧
      run Demo.handler Demo.limit 6 (.attach Demo.handler m (.ofLayout .macPlus)) = .ok b ∧
      b.dispatch.notifications = 1 ∧ b.dispatch.rejected = 0 ∧ b.dispatch.failed = 0 := by
  obtain ⟨s, hbanks⟩ : ∃ s, Layout.macPlus.buildBanks = .ok s := ⟨_, rfl⟩
  have hs := Layout.shape_of_buildBanks hbanks
  obtain ⟨m, b, hremap, hrun, hfailed, hrejected, -, hmapped, -⟩ := run_macPlus hs (Nat.le_refl Demo.limit) 6
  exact ⟨s, m, b, hbanks, hs, hremap, hrun, hmapped.mpr ⟨5, by decide, by decide⟩, hrejected, hfailed⟩

end Trace

end MemoryBus
