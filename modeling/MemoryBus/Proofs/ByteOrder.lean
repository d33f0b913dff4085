import MemoryBus.Proofs.Cells

/-! A word and the two bytes at its addresses. The word takes its low byte from the bank, right after
its high byte; a read of that byte alone looks its own address up. -/
namespace MemoryBus

variable {σ : Type} {a : UInt32}

theorem add_one_eq_or (ha : a &&& 1 = 0) : a + 1 = a ||| 1 :=
  UInt32.toBitVec_inj.1 (BitVec.add_eq_or_of_and_eq_zero _ _ (congrArg UInt32.toBitVec ha))

theorem add_one_and (ha : a &&& 1 = 0) (m : UInt32) : (a + 1) &&& m = a &&& m ||| 1 &&& m := by
  rw [add_one_eq_or ha, or_and_distrib]

namespace Range

/-- A window that does not compare bit 0 owns both addresses of a word. -/
theorem owns_add_one {r : Range} (hr : r.mask &&& 1 = 0) (ha : a &&& 1 = 0) :
    r.owns (a + 1) = r.owns a := by
  rw [owns, owns, add_one_and ha, UInt32.and_comm 1, hr, UInt32.or_zero]

end Range

namespace Backing

/-- A window that uses bit 0 keeps the two bytes of a word side by side. -/
theorem offset_add_one {k : Backing} (hk : k.mask &&& 1 = 1) (ha : a &&& 1 = 0) :
    k.offset (a + 1) = k.offset a + 1 := by
  have heven : (a &&& k.mask) &&& 1 = 0 := by
    rw [UInt32.and_assoc, UInt32.and_comm k.mask, ← UInt32.and_assoc, ha, UInt32.zero_and]
  have hnext : ((a + 1) &&& k.mask).toNat = (a &&& k.mask).toNat + 1 := by
    have hlt := (a &&& k.mask).toNat_lt
    have hmod := and_one_toNat (a &&& k.mask)
    rw [heven, UInt32.toNat_zero] at hmod
    rw [add_one_and ha, UInt32.and_comm 1, hk, ← add_one_eq_or heven, UInt32.toNat_add,
      UInt32.toNat_one]
    omega
  rw [offset, offset, hnext, Nat.add_assoc]

end Backing

namespace Table

/-- The byte at `a + 1` is kept right after the byte at `a`, or neither is kept anywhere. -/
def Pairs (t : Table) (a : UInt32) : Prop :=
  t.cell? .read (a + 1) = (t.cell? .read a).map fun (bank, offset) => (bank, offset + 1)

variable {t : Table}

/-- Windows that own whole words and keep them whole. -/
theorem Disjoint.pairs (ht : t.Disjoint)
    (hwhole : ∀ r ∈ t.entries, ∀ k, r.served .read = some k →
      r.mask &&& 1 = 0 ∧ k.mask &&& 1 = 1) (ha : a &&& 1 = 0) : t.Pairs a := by
  have hserved {i : Nat} {k : Backing} (hk : (t.entry i).served .read = some k) :=
    hwhole _ (mem_entries_of_served hk) k hk
  unfold Pairs
  cases hk : (t.find a).1.range.served .read with
  | some k =>
    rw [range_of_find] at hk
    obtain ⟨hmask, huse⟩ := hserved hk
    have ho := owns_of_find (t := t) (a := a)
    rw [ht.cell?_of_served hk ho, ht.cell?_of_served hk ((Range.owns_add_one hmask ha).trans ho),
      Option.map_some, Backing.offset_add_one huse ha]
  | none =>
    have hnone : t.cell? .read a = none := by rw [ht.cell?_eq, hk, Option.map_none]
    rw [hnone, Option.map_none]
    cases hk' : (t.find (a + 1)).1.range.served .read with
    | none => rw [ht.cell?_eq, hk', Option.map_none]
    | some k =>
      -- The window of `a + 1` would serve `a` too.
      rw [range_of_find] at hk'
      have ho := (Range.owns_add_one (hserved hk').1 ha).symm.trans owns_of_find
      exact absurd ((ht.cell?_of_served hk' ho).symm.trans hnone) (by simp)

end Table

namespace Banks

variable {s : Banks} {c c' : Option (Nat × Nat)} {v : UInt8}

theorem byteAt_put (hc : s.Has c) (hne : c ≠ none) (c' : Option (Nat × Nat)) :
    (s.put c v).byteAt c' = if c' = c then v else s.byteAt c' := by
  cases c' with
  | none => rw [if_neg hne.symm, byteAt, byteAt]
  | some place =>
    rw [byteAt, byte?_put hc]
    split <;> rfl

/-- One byte is enough to tell two places apart. -/
theorem exists_overwriteBank_ne (hc : s.Has c) (hc' : s.Has c') (hne : c ≠ c') :
    ∃ bank offset v, (s.overwriteBank bank offset [v]).byteAt c ≠
      (s.overwriteBank bank offset [v]).byteAt c' := by
  have hsucc (v : UInt8) : v + 1 ≠ v := by simp
  have hput {bank offset : Nat} (hc : s.Has (some (bank, offset))) (v : UInt8)
      (c' : Option (Nat × Nat)) : (s.overwriteBank bank offset [v]).byteAt c' =
        if c' = some (bank, offset) then v else s.byteAt c' :=
    overwriteBank_single bank offset v ▸ byteAt_put hc (by simp) c'
  rcases Option.eq_none_or_eq_some c with rfl | ⟨⟨bank, offset⟩, rfl⟩
  · obtain ⟨⟨bank, offset⟩, rfl⟩ := Option.ne_none_iff_exists'.mp hne.symm
    refine ⟨bank, offset, s.byteAt none + 1, ?_⟩
    rw [hput hc', hput hc', if_neg hne, if_pos rfl]
    exact (hsucc _).symm
  · refine ⟨bank, offset, s.byteAt c' + 1, ?_⟩
    rw [hput hc, hput hc, if_pos rfl, if_neg hne.symm]
    exact hsucc _

end Banks

/-- The low byte of a word stands in it. -/
theorem BigEndian.wordLow_word (high low : UInt8) : wordLow (word high low) = low := by
  apply UInt8.toNat_inj.mp
  simp [wordLow, toNat_word, number]

namespace Operation

theorem answer_readByte (v : UInt8) (a : UInt32) : (readByte a).answer [v] = .byte v := by
  simp [answer, BigEndian.number]

theorem answer_readWord (v u : UInt8) (a : UInt32) :
    (readWord a).answer [v, u] = .word (BigEndian.word v u) := by
  rw [answer, BigEndian.word_eq_number]

theorem cells_readByte (t : Table) (a : UInt32) : (readByte a).cells t = [t.cell? .read a] := rfl

theorem cells_readWord (t : Table) (ha : a &&& 1 = 0) : (readWord a).cells t =
    [t.cell? .read a, (t.cell? .read a).map fun (bank, offset) => (bank, offset + 1)] := by
  have hword : Request.readWord a = [.read .word a] := if_neg (by simpa using ha)
  rw [cells, parts, hword]
  rfl

variable {t : Table} {b : Bus σ} {ops : List Operation}

/-- Reads answer what is in their places, in whatever order they come. -/
theorem run_reads (h : Handler σ) (limit : Nat) (ht : t.Disjoint) (hp : t.Plain)
    (hops : ∀ op ∈ ops, op.parts ≠ [] ∧ op.bytes = []) (hb : b.map.Over t) :
    Bus.Yields t (ops.map fun op => op.answer ((op.cells t).map b.map.banks.byteAt)) b.map.banks
      (run (Bus.port h limit) b ops) := by
  induction ops generalizing b with
  | nil => exact ⟨b, rfl, hb, rfl⟩
  | cons op ops ih =>
    obtain ⟨hparts, hbytes⟩ := hops op (by simp)
    have hop := perform_cells h limit ht hp hb hparts
    rw [hbytes, List.zip_nil_right] at hop
    refine hop.bind fun b₁ hb₁ hs => ?_
    have hrest := ih (fun op hop => hops op (by simp [hop])) hb₁
    rw [hs] at hrest
    exact hrest.bind fun b' hb' hs' => ⟨b', rfl, hb', hs'⟩

end Operation

namespace Bus

variable (h : Handler σ) (limit : Nat)

/-- The word at `a` is the bytes at `a` and `a + 1`, when it is read before them and after them. -/
def InOrder (b : Bus σ) (a : UInt32) : Prop :=
  ∃ (high low : UInt8) (b' : Bus σ),
    Operation.run (port h limit) b [.readWord a, .readByte a, .readByte (a + 1), .readWord a] =
      .ok ([.word (high.toUInt16 <<< 8 ||| low.toUInt16), .byte high, .byte low,
        .word (high.toUInt16 <<< 8 ||| low.toUInt16)], b')

variable {h limit} {t : Table} {b : Bus σ}

/-- The order of the bytes depends on what is in the place after the high byte only. -/
theorem inOrder_iff (ht : t.Disjoint) (hp : t.Plain) (hb : b.map.Over t) (ha : a &&& 1 = 0) :
    b.InOrder h limit a ↔
      b.map.banks.byteAt ((t.cell? .read a).map fun (bank, offset) => (bank, offset + 1)) =
        b.map.banks.byteAt (t.cell? .read (a + 1)) := by
  let ops : List Operation := [.readWord a, .readByte a, .readByte (a + 1), .readWord a]
  have hops : ∀ op ∈ ops, op.parts ≠ [] ∧ op.bytes = [] := by
    simp [ops, Operation.parts, Operation.bytes]
  obtain ⟨b', hrun, -, -⟩ := Operation.run_reads h limit ht hp hops hb
  simp only [ops, List.map_cons, List.map_nil, Operation.cells_readByte, Operation.cells_readWord t ha,
    Operation.answer_readByte, Operation.answer_readWord] at hrun
  constructor
  · rintro ⟨high, low, b'', hlaw⟩
    have hsame := congrArg Prod.fst (Except.ok.inj (hrun.symm.trans hlaw))
    simp only [List.cons.injEq, Operation.Reply.word.injEq, Operation.Reply.byte.injEq] at hsame
    obtain ⟨hword, rfl, rfl, -⟩ := hsame
    have hlow := congrArg BigEndian.wordLow hword
    exact (BigEndian.wordLow_word _ _).symm.trans (hlow.trans (BigEndian.wordLow_word _ _))
  · intro hlow
    exact ⟨_, _, b', by rw [hrun, hlow]; rfl⟩

/-- Bytes whose places are apart are out of order once one byte of the banks is overwritten. -/
theorem exists_not_inOrder (ht : t.Disjoint) (hp : t.Plain) (hb : b.map.Over t) (ha : a &&& 1 = 0)
    (hapart : ¬ t.Pairs a) : ∃ bank offset v,
      ¬ InOrder h limit { b with map := b.map.overwriteBank bank offset [v] } a := by
  have hafter := hb.has_cells ht (q := .read .word a) (fun _ => ha)
    ((t.cell? .read a).map fun (bank, offset) => (bank, offset + 1))
    (by simp [Request.cells, Request.read, Width.cells])
  have hnext := hb.has_cells ht (q := .read .byte (a + 1)) (by simp [Request.Aligned, Request.read])
    (t.cell? .read (a + 1)) (by simp [Request.cells, Request.read, Width.cells])
  obtain ⟨bank, offset, v, hne⟩ := Banks.exists_overwriteBank_ne hafter hnext (Ne.symm hapart)
  have hover : (b.map.overwriteBank bank offset [v]).Over t :=
    hb.of_same rfl rfl (by simp [MemoryMap.overwriteBank])
  exact ⟨bank, offset, v, fun horder => hne ((inOrder_iff ht hp hover ha).mp horder)⟩

end Bus

namespace Operation

variable {h : Handler σ} {limit : Nat} {b : Bus σ}

/-- In every state that a run leads to, where ranges share no address and none calls anyone, the word at
an even address is the two bytes at its addresses, the high one first, if the second byte is kept right
after the first. If it is not, some byte of the banks can be overwritten so that the word is another.
Windows that own whole words and keep them whole keep all words so. -/
theorem words_in_order (hh : h.Confined fun _ => True) (banks : Banks) (s : σ) {ops : List Operation}
    {answers : List Reply}
    (hrun : run (Bus.port h limit) (Bus.attach h (.ofBanks banks) s) ops = .ok (answers, b))
    (ht : b.map.table.Disjoint) (hp : b.map.table.Plain) (ha : a &&& 1 = 0) :
    (b.map.table.Pairs a → b.InOrder h limit a) ∧
      (¬ b.map.table.Pairs a → ∃ bank offset v,
        ¬ Bus.InOrder h limit { b with map := b.map.overwriteBank bank offset [v] } a) ∧
      ((∀ r ∈ b.map.table.entries, ∀ k, r.served .read = some k →
        r.mask &&& 1 = 0 ∧ k.mask &&& 1 = 1) → b.map.table.Pairs a) := by
  have hsound : Settles _ (run (Bus.port h limit) _ ops) :=
    settles_run (J := fun b => b.map.Sound) (fun op _ b hb => settles_sound hh hb op)
      (Bus.sound_attach h banks s)
  rw [hrun] at hsound
  have hb : b.map.Over b.map.table := ⟨hsound, rfl⟩
  refine ⟨fun hpairs => ?_, Bus.exists_not_inOrder ht hp hb ha, fun hwhole => ht.pairs hwhole ha⟩
  exact (Bus.inOrder_iff ht hp hb ha).mpr (congrArg _ hpairs.symm)

/-- A window of four bytes, after a find and a write. -/
theorem words_in_order_window : ∃ (h : Handler Unit) (banks : Banks) (ops : List Operation)
    (answers : List Reply) (b : Bus Unit), h.Confined (fun _ => True) ∧
      run (Bus.port h 1) (Bus.attach h (.ofBanks banks) ()) ops = .ok (answers, b) ∧
      b.map.table.Disjoint ∧ b.map.table.Plain ∧ b.map.table.Pairs 0x0102 ∧
      b.InOrder h 1 0x0102 := by
  obtain ⟨h, banks, ops, answers, b, hh, hrun, ht, hp, hwhole⟩ : ∃ (h : Handler Unit)
      (banks : Banks) (ops : List Operation) (answers : List Reply) (b : Bus Unit),
        h.Confined (fun _ => True) ∧
        run (Bus.port h 1) (Bus.attach h (.ofBanks banks) ()) ops = .ok (answers, b) ∧
        b.map.table.Disjoint ∧ b.map.table.Plain ∧
        ∀ r ∈ b.map.table.entries, ∀ k, r.served .read = some k →
          r.mask &&& 1 = 0 ∧ k.mask &&& 1 = 1 := by
    refine ⟨.silent "silent", ⟨#[⟨"ram", ⟨#[7, 9, 1, 2]⟩⟩]⟩,
      [.install ⟨.ofRanges [⟨0xFF00, 0x0200, .none, none, 0⟩,
        ⟨0xFF00, 0x0100, .union .read .write, some ⟨0, 0, 3⟩, 0⟩] .guard, .zero,
          Arena.valid_ofRanges rfl rfl rfl (by decide)⟩, .find 0x0100, .writeByte 0x0103 5], _, _,
      Handler.confined_silent _, rfl, ?_, ?_, ?_⟩
    · exact Table.disjoint_of_mask 0xFF00 (by decide) (by decide)
    · unfold Table.Plain
      decide
    · decide
  obtain ⟨horder, -, hpairs⟩ := words_in_order hh banks () hrun ht hp (a := 0x0102) (by decide)
  exact ⟨h, banks, ops, answers, b, hh, hrun, ht, hp, hpairs hwhole, horder (hpairs hwhole)⟩

/-- A window that does not use bit 0 gives both addresses of a word one byte. -/
theorem not_in_order_of_even_mask : ¬ ∀ (h : Handler Unit) (limit : Nat) (banks : Banks)
    (ops : List Operation) (answers : List Reply) (b : Bus Unit) (a : UInt32),
      h.Confined (fun _ => True) →
      run (Bus.port h limit) (Bus.attach h (.ofBanks banks) ()) ops = .ok (answers, b) →
      b.map.table.Disjoint → b.map.table.Plain → a &&& 1 = 0 → b.InOrder h limit a := by
  intro hall
  obtain ⟨h, banks, ops, answers, b, b', hh, hrun, ht, hp, hread⟩ : ∃ (h : Handler Unit)
      (banks : Banks) (ops : List Operation) (answers : List Reply) (b b' : Bus Unit),
        h.Confined (fun _ => True) ∧
        run (Bus.port h 1) (Bus.attach h (.ofBanks banks) ()) ops = .ok (answers, b) ∧
        b.map.table.Disjoint ∧ b.map.table.Plain ∧
        run (Bus.port h 1) b [.readWord 0x0100, .readByte 0x0100, .readByte (0x0100 + 1),
          .readWord 0x0100] = .ok ([.word 0x0102, .byte 1, .byte 1, .word 0x0102], b') := by
    refine ⟨.silent "silent", ⟨#[⟨"ram", ⟨#[1, 2, 3, 4]⟩⟩]⟩,
      [.install ⟨.ofRanges [⟨0xFF00, 0x0100, .read, some ⟨0, 0, 2⟩, 0⟩] .guard, .zero,
        Arena.valid_ofRanges rfl rfl rfl (by decide)⟩], [.done], _, _,
      Handler.confined_silent _, rfl, ?_, ?_, rfl⟩
    · exact Table.disjoint_of_mask 0xFF00 (by decide) (by decide)
    · unfold Table.Plain
      decide
  obtain ⟨high, low, b'', horder⟩ := hall h 1 banks ops answers b 0x0100 hh hrun ht hp (by decide)
  have hsame := congrArg Prod.fst (Except.ok.inj (hread.symm.trans horder))
  simp only [List.cons.injEq, Reply.word.injEq, Reply.byte.injEq] at hsame
  obtain ⟨hword, rfl, rfl, -⟩ := hsame
  exact absurd hword (by decide)

end Operation
end MemoryBus
