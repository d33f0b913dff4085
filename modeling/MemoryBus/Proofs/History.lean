import MemoryBus.Proofs.Parts
import MemoryBus.Proofs.Remapping

/-! What a slot holds, by the history of the memory: the range that served the last part of its kind
since a table was last installed. -/
namespace MemoryBus

variable {σ : Type}

/-- A part that a bank served: the range that it belongs to, and the place in the bank. -/
structure Served where
  request : Request
  range : Range
  bank : Nat
  offset : Nat

/-- What slots depend on. -/
inductive Deed
  | installed
  | served (s : Served)

/-- What has happened to a memory, the latest first. -/
abbrev History := List Deed

/-- The parts of one kind that banks have served since a table was last installed, the latest first. -/
def History.since (d : Direction) (w : Width) : History → List Served
  | [] => []
  | .installed :: _ => []
  | .served s :: past =>
    if s.request.direction = d ∧ s.request.width = w then s :: since d w past else since d w past

section

variable (h : Handler σ) (installs : σ → Range → MemoryMap → Bool) (limit : Nat)

/-- The history after one part. A part that the slot serves belongs to the range that served the one
before it. -/
def Bus.remembering (q : Request) (b : Bus σ) (past : History) : History :=
  match (b.map.slots.get q.direction q.width).translate q.address with
  | some (bank, offset) =>
    let range := ((past.since q.direction q.width).head?.map (·.range)).getD .guard
    .served ⟨q, range, bank, offset⟩ :: past
  | none =>
    let installed := b.installations h installs q.direction q.address limit
    let past := List.replicate installed .installed ++ past
    match b.resolve h q.direction q.address limit with
    | .ok (.memory r k, _) => .served ⟨q, r, k.bank, k.offset q.address⟩ :: past
    | _ => past

/-- Parts one after the other, with their history. -/
def Bus.recordParts : List Request → Bus σ × History → Except Fault (Bus σ × History)
  | [], x => .ok x
  | q :: qs, (b, past) => do
    let (_, b') ← b.serve h limit q
    recordParts qs (b', b.remembering h installs limit q past)

namespace Operation

/-- The history after an operation that has no parts. -/
def entered (answer : Reply) (past : History) : Operation → History
  | install _ | reinstall => if answer = .done then .installed :: past else past
  | _ => past

/-- One operation, with its history. -/
def record (op : Operation) : Bus σ × History → Except Fault (Bus σ × History)
  | (b, past) =>
    if op.parts.isEmpty then
      (op.perform (Bus.port h limit) b).map fun (answer, b') => (b', op.entered answer past)
    else Bus.recordParts h installs limit op.parts (b, past)

def recordAll : List Operation → Bus σ × History → Except Fault (Bus σ × History)
  | [], x => .ok x
  | op :: ops, x => do recordAll ops (← op.record h installs limit x)

end Operation

end

namespace History

variable {d : Direction} {w : Width} {past : History} {s : Served}

theorem since_replicate {n : Nat} (hn : n ≠ 0) :
    History.since d w (List.replicate n .installed ++ past) = [] := by
  obtain ⟨n, rfl⟩ := Nat.exists_eq_succ_of_ne_zero hn
  rfl

theorem kind_of_mem_since (hs : s ∈ past.since d w) : s.request.direction = d ∧ s.request.width = w := by
  fun_induction since d w past with
  | case1 => cases hs
  | case2 => cases hs
  | case3 s' past hkind ih =>
    rcases List.mem_cons.mp hs with rfl | hs
    · exact hkind
    · exact ih hs
  | case4 s' past hkind ih => exact ih hs

end History

namespace Slot

variable {slot : Slot} {d : Direction} {w : Width} {r : Range} {a : UInt32} {bank offset : Nat}

/-- The slot for accesses of kind `d`, `w` holds range `r`. -/
def Holds (slot : Slot) (d : Direction) (w : Width) (r : Range) : Prop :=
  ∃ k, r.served d = some k ∧
    slot = ⟨match w with | .byte => r.mask | .word => r.mask ||| 1, r.value, k⟩

theorem Holds.translate (hs : slot.Holds d w r) (heven : w = .word → r.value &&& 1 = 0)
    (ht : slot.translate a = some (bank, offset)) :
    r.owns a = true ∧ (w = .word → a &&& 1 = 0) ∧
      ∃ k, r.served d = some k ∧ bank = k.bank ∧ offset = k.offset a := by
  obtain ⟨k, hk, rfl⟩ := hs
  cases w with
  | byte =>
    obtain ⟨ho, hp⟩ := translate_ofRange ht
    obtain ⟨hbank, hoffset⟩ := Prod.mk.inj hp
    exact ⟨ho, by simp, k, hk, hbank, hoffset⟩
  | word =>
    obtain ⟨ho, ha, hp⟩ := translate_ofRangeEven (heven rfl) ht
    obtain ⟨hbank, hoffset⟩ := Prod.mk.inj hp
    exact ⟨ho, fun _ => ha, k, hk, hbank, hoffset⟩

end Slot

/-- The part is one of a range of the table, and was served from the bytes that back the range. -/
structure Served.Faithful (s : Served) (t : Table) : Prop where
  mem : s.range ∈ t.entries
  owns : s.range.owns s.request.address = true
  aligned : s.request.Aligned
  place : ∃ k, s.range.served s.request.direction = some k ∧ s.bank = k.bank ∧
    s.offset = k.offset s.request.address

theorem Served.Faithful.of_entries {s : Served} {t u : Table} (hs : s.Faithful t)
    (h : u.entries = t.entries) : s.Faithful u := ⟨h ▸ hs.mem, hs.owns, hs.aligned, hs.place⟩

namespace MemoryMap

/-- The slots are what the history makes them. -/
structure Recalls (m : MemoryMap) (past : History) : Prop where
  empty : ∀ d w, past.since d w = [] → m.slots.get d w = .empty
  holds : ∀ d w s rest, past.since d w = s :: rest → (m.slots.get d w).Holds d w s.range
  faithful : ∀ d w, ∀ s ∈ past.since d w, s.Faithful m.table

variable {m m' : MemoryMap} {past : History} {n : Nat} {s : Served}

theorem recalls_of_empty (hs : m.slots = .empty) (hpast : ∀ d w, past.since d w = []) :
    m.Recalls past where
  empty d w _ := by simp [hs]
  holds d w s rest heq := by simp [hpast] at heq
  faithful d w s hmem := by simp [hpast] at hmem

theorem Recalls.of_same (hm : m.Recalls past) (ht : m'.table.entries = m.table.entries)
    (hs : m'.slots = m.slots) : m'.Recalls past where
  empty := hs ▸ hm.empty
  holds := hs ▸ hm.holds
  faithful d w s hmem := (hm.faithful d w s hmem).of_entries ht

theorem Recalls.remapped (hm : m.Recalls past) (hr : Remapped n m m') :
    m'.Recalls (List.replicate n .installed ++ past) := by
  by_cases hn : n = 0
  · subst hn
    exact hm.of_same hr.1 hr.2
  · refine recalls_of_empty (by simpa [hn] using hr.slots) fun d w => ?_
    exact History.since_replicate hn

/-- One more part, which leaves its range in its slot and the other slots as they are. -/
theorem Recalls.push (hm : m.Recalls past) (ht : m'.table.entries = m.table.entries)
    (hslot : (m'.slots.get s.request.direction s.request.width).Holds s.request.direction
      s.request.width s.range)
    (hother : ∀ d w, ¬ (s.request.direction = d ∧ s.request.width = w) →
      m'.slots.get d w = m.slots.get d w)
    (hs : s.Faithful m.table) : m'.Recalls (.served s :: past) where
  empty d w hnil := by
    unfold History.since at hnil
    split at hnil
    · cases hnil
    · rename_i hkind
      rw [hother d w hkind]
      exact hm.empty d w hnil
  holds d w s' rest heq := by
    unfold History.since at heq
    split at heq
    · rename_i hkind
      obtain ⟨rfl, rfl⟩ := hkind
      obtain ⟨rfl, -⟩ := List.cons.inj heq
      exact hslot
    · rename_i hkind
      rw [hother d w hkind]
      exact hm.holds d w s' rest heq
  faithful d w s' hmem := by
    have hs' : s' = s ∨ s' ∈ past.since d w := by
      unfold History.since at hmem
      split at hmem
      · exact List.mem_cons.mp hmem
      · exact .inr hmem
    rcases hs' with rfl | hmem
    · exact hs.of_entries ht
    · exact (hm.faithful d w s' hmem).of_entries ht

/-- What a slot translates belongs to the range that served the last part of its kind. -/
theorem Recalls.range_owns (hm : m.Recalls past) {d : Direction} {w : Width} {a : UInt32}
    {bank offset : Nat} (ht : (m.slots.get d w).translate a = some (bank, offset)) :
    ∃ s rest, past.since d w = s :: rest ∧ s.range.owns a = true ∧ (w = .word → a &&& 1 = 0) ∧
      ∃ k, s.range.served d = some k ∧ bank = k.bank ∧ offset = k.offset a := by
  cases heq : past.since d w with
  | nil =>
    rw [hm.empty d w heq, Slot.translate_empty] at ht
    cases ht
  | cons s rest =>
    have hmem : s ∈ past.since d w := by simp [heq]
    obtain ⟨-, rfl⟩ := History.kind_of_mem_since hmem
    have hf := hm.faithful _ _ s hmem
    have heven : s.request.width = .word → s.range.value &&& 1 = 0 :=
      fun hw => Range.value_even hf.owns (hf.aligned hw)
    exact ⟨s, rest, rfl, (hm.holds _ _ s rest heq).translate heven ht⟩

end MemoryMap

namespace Bus

variable {h : Handler σ} {installs : σ → Range → MemoryMap → Bool} {limit : Nat} {b b' : Bus σ}
  {past : History} {q : Request} {v : UInt32}

/-- One part keeps the slots what the history makes them. -/
theorem recalls_serve (hh : h.Declares installs) (hb : b.map.Recalls past) (hq : q.Aligned)
    (hs : b.serve h limit q = .ok (v, b')) :
    b'.map.Recalls (b.remembering h installs limit q past) := by
  unfold remembering
  rcases serve_cases hs with ⟨bank, offset, ht, htransfer⟩ | ⟨ht, hmiss⟩
  · obtain ⟨banks, -, rfl⟩ := transfer_banks htransfer
    obtain ⟨s, rest, heq, ho, ha, k, hk, hbank, hoffset⟩ := hb.range_owns ht
    have hmem : s ∈ past.since q.direction q.width := by simp [heq]
    simp only [ht, heq, List.head?_cons, Option.map_some, Option.getD_some]
    refine hb.push rfl (hb.holds _ _ s rest heq) (fun _ _ _ => rfl) ?_
    exact ⟨(hb.faithful _ _ s hmem).mem, ho, hq, k, hk, hbank, hoffset⟩
  · simp only [ht]
    rcases hmiss with ⟨r, k, b₁, hr, htransfer⟩ | ⟨r, b₁, hr, hcall⟩ | ⟨hr, -⟩
    · simp only [hr]
      have hb₁ := hb.remapped (remapped_resolve hh hr)
      obtain ⟨hmem, ho, hk⟩ := resolve_memory hr
      obtain ⟨banks, -, rfl⟩ := transfer_banks htransfer
      refine hb₁.push rfl ?_ ?_ ⟨hmem, ho, hq, k, hk, rfl, rfl⟩
      · refine ⟨k, hk, (Slots.get_remember ..).trans (if_pos ⟨rfl, rfl⟩) |>.trans ?_⟩
        cases q.width <;> rfl
      · intro d w hkind
        exact (Slots.get_remember ..).trans (if_neg fun ⟨hd, hw⟩ => hkind ⟨hd.symm, hw.symm⟩)
    · simp only [hr]
      have hb₁ := hb.remapped (remapped_resolve hh hr)
      obtain rfl : (b₁.callDevice h r q).2 = b' := congrArg Prod.snd hcall
      exact callDevice_map (I := fun m => m.Recalls _) (fun e hm => hm.of_same rfl rfl) hb₁ r q
    · simp only [hr]
      exact hb.remapped (remapped_resolve hh hr)

theorem recalls_recordParts (hh : h.Declares installs) {qs : List Request} (hqs : ∀ q ∈ qs, q.Aligned)
    (hb : b.map.Recalls past) (hs : b.serveAll h limit qs = .ok b') :
    ∃ past', recordParts h installs limit qs (b, past) = .ok (b', past') ∧ b'.map.Recalls past' := by
  induction qs generalizing b past with
  | nil => exact ⟨past, congrArg _ (Prod.ext (Except.ok.inj hs) rfl), Except.ok.inj hs ▸ hb⟩
  | cons q qs ih =>
    simp only [serveAll, bind, Except.bind] at hs
    split at hs
    · cases hs
    · rename_i result hserve
      have hb₁ := recalls_serve hh hb (hqs q (by simp)) hserve
      simp only [recordParts, hserve, bind, Except.bind]
      exact ih (fun q hq => hqs q (by simp [hq])) hb₁ hs

end Bus

namespace Operation

variable {h : Handler σ} {installs : σ → Range → MemoryMap → Bool} {limit : Nat} {b b' : Bus σ}
  {past : History} {op : Operation} {answer : Reply} {ops : List Operation}

theorem recalls_settle (hb : b.map.Recalls past) {x : Except TableError MemoryMap}
    (hx : ∀ m, x = .ok m → m.slots = .empty) :
    (settle b (x.mapError .table)).2.map.Recalls
      (if (settle b (x.mapError .table)).1 = .done then .installed :: past else past) := by
  cases x with
  | ok m => exact MemoryMap.recalls_of_empty (hx m rfl) fun _ _ => rfl
  | error e => exact hb

theorem recalls_entered (hb : b.map.Recalls past) (hparts : op.parts = [])
    (hop : op.perform (Bus.port h limit) b = .ok (answer, b')) :
    b'.map.Recalls (op.entered answer past) := by
  have hstill {m : MemoryMap} (hc : Change (fun _ => False) b.map m) : m.Recalls past := by
    have hr := MemoryMap.remapped_of_still (.single hc)
    exact hb.of_same hr.1 hr.2
  have hempty {t : Table} (m : MemoryMap) (hm : b.map.install t = .ok m) : m.slots = .empty := by
    obtain ⟨-, rfl⟩ := MemoryMap.install_ok hm
    rfl
  cases op with
  | find a =>
    obtain ⟨rfl, rfl⟩ := Prod.mk.inj (Except.ok.inj hop)
    exact hstill (.find _ a)
  | install t =>
    obtain ⟨rfl, rfl⟩ := Prod.mk.inj (Except.ok.inj hop)
    exact recalls_settle hb hempty
  | reinstall =>
    obtain ⟨rfl, rfl⟩ := Prod.mk.inj (Except.ok.inj hop)
    exact recalls_settle hb hempty
  | addBank name bytes =>
    obtain ⟨rfl, rfl⟩ := Prod.mk.inj (Except.ok.inj hop)
    exact hstill (.addBank _ name bytes)
  | overwriteBank i offset bytes =>
    obtain ⟨rfl, rfl⟩ := Prod.mk.inj (Except.ok.inj hop)
    exact hstill (.overwriteBank _ i offset bytes)
  | restore s =>
    obtain ⟨rfl, rfl⟩ := Prod.mk.inj (Except.ok.inj hop)
    exact settle_map hb fun m hm => hstill (.restore (mapError_ok hm))
  | loadImage i path file =>
    obtain ⟨rfl, rfl⟩ := Prod.mk.inj (Except.ok.inj hop)
    exact hstill (.loadImage _ i path file)
  | resetStats =>
    obtain ⟨rfl, rfl⟩ := Prod.mk.inj (Except.ok.inj hop)
    exact hb.of_same rfl rfl
  | _ => simp [parts] at hparts

theorem recalls_record (hh : h.Declares installs) (hsound : b.map.Sound) (hb : b.map.Recalls past)
    (hop : op.perform (Bus.port h limit) b = .ok (answer, b')) :
    ∃ past', op.record h installs limit (b, past) = .ok (b', past') ∧ b'.map.Recalls past' := by
  by_cases hparts : op.parts = []
  · refine ⟨op.entered answer past, ?_, recalls_entered hb hparts hop⟩
    simp [record, hparts, hop, Except.map]
  · have hall : (op.perform (Bus.port h limit) b).map (·.2) = _ :=
      perform_parts (keeps_sound hh.confined).carries MemoryMap.Sound.aligned hsound hparts
    rw [hop] at hall
    simpa [record, hparts] using Bus.recalls_recordParts hh op.aligned_parts hb hall.symm

theorem recalls_recordAll (hh : h.Declares installs) {answers : List Reply} (hsound : b.map.Sound)
    (hb : b.map.Recalls past) (hrun : run (Bus.port h limit) b ops = .ok (answers, b')) :
    ∃ past', recordAll h installs limit ops (b, past) = .ok (b', past') ∧ b'.map.Recalls past' := by
  induction ops generalizing b past answers with
  | nil =>
    obtain ⟨-, rfl⟩ := Prod.mk.inj (Except.ok.inj hrun)
    exact ⟨past, rfl, hb⟩
  | cons op ops ih =>
    obtain ⟨answer, b₁, rest, hop, hrest, -⟩ := run_cons hrun
    obtain ⟨past₁, hrecord, hb₁⟩ := recalls_record hh hsound hb hop
    have hsound₁ : Settles _ (op.perform (Bus.port h limit) b) := settles_sound hh.confined hsound op
    rw [hop] at hsound₁
    simp only [recordAll, hrecord, bind, Except.bind]
    exact ih hsound₁ hb₁ hrest

/-- A part that no bank serves changes no slot but through the tables that the handler installs. -/
theorem slots_of_unserved (hh : h.Declares installs) {q : Request} {t : Service} {b₁ : Bus σ}
    {v : UInt32} (ht : (b.map.slots.get q.direction q.width).translate q.address = none)
    (hr : b.resolve h q.direction q.address limit = .ok (t, b₁)) (hmem : ∀ r k, t ≠ .memory r k)
    (hs : b.serve h limit q = .ok (v, b')) : b'.map.slots =
      if b.installations h installs q.direction q.address limit = 0 then b.map.slots else .empty := by
  rw [← (Bus.remapped_resolve hh hr).slots]
  rcases Bus.serve_cases hs with ⟨bank, offset, ht', -⟩ | ⟨-, hmiss⟩
  · rw [ht] at ht'
    cases ht'
  · rcases hmiss with ⟨r, k, b₂, hr', -⟩ | ⟨r, b₂, hr', hcall⟩ | ⟨hr', -⟩
    · obtain ⟨rfl, -⟩ := Prod.mk.inj (Except.ok.inj (hr.symm.trans hr'))
      exact absurd rfl (hmem r k)
    · obtain ⟨-, rfl⟩ := Prod.mk.inj (Except.ok.inj (hr.symm.trans hr'))
      obtain rfl : (b₁.callDevice h r q).2 = b' := congrArg Prod.snd hcall
      exact Bus.callDevice_map (I := fun m => m.slots = b₁.map.slots) (fun _ hm => hm) rfl r q
    · obtain ⟨-, rfl⟩ := Prod.mk.inj (Except.ok.inj (hr.symm.trans hr'))
      rfl

/-- What every slot holds after any run: nothing if no bank has served a part of its kind since a
table was last installed, and else the range that served the last one. Parts that a device serves,
and parts that fail, change no slot but through the tables that the handler installs. -/
theorem slots_recall_history (hh : h.Declares installs) (banks : Banks) (s : σ) {answers : List Reply}
    (hrun : run (Bus.port h limit) (Bus.attach h (.ofBanks banks) s) ops = .ok (answers, b)) :
    ∃ past, recordAll h installs limit ops (Bus.attach h (.ofBanks banks) s, []) = .ok (b, past) ∧
      (∀ d w, past.since d w = [] →
        b.map.slots.get d w = .empty ∧ ∀ a, (b.map.slots.get d w).translate a = none) ∧
      (∀ d w last earlier, past.since d w = last :: earlier → ∃ k, last.range.backing = some k ∧
        b.map.slots.get d w = ⟨match w with | .byte => last.range.mask | .word => last.range.mask ||| 1,
          last.range.value, k⟩) ∧
      (∀ d w, ∀ s ∈ past.since d w, s.range ∈ b.map.table.entries ∧
        s.range.access.has d.ready = true ∧ s.range.owns s.request.address = true ∧
          ∃ k, s.range.backing = some k ∧ s.bank = k.bank ∧ s.offset = k.offset s.request.address) ∧
      (∀ d a, a &&& 1 ≠ 0 → (b.map.slots.get d .word).translate a = none) ∧
      ∀ q limit t b₁ v b', (b.map.slots.get q.direction q.width).translate q.address = none →
        b.resolve h q.direction q.address limit = .ok (t, b₁) → (∀ r k, t ≠ .memory r k) →
        b.serve h limit q = .ok (v, b') → b'.map.slots =
          if b.installations h installs q.direction q.address limit = 0 then b.map.slots
          else .empty := by
  have hsound := Bus.sound_attach h banks s
  have hstart : (Bus.attach h (.ofBanks banks) s).map.Recalls [] :=
    MemoryMap.recalls_of_empty rfl fun _ _ => rfl
  obtain ⟨past, hrecord, hb⟩ := recalls_recordAll hh hsound hstart hrun
  have hend : Settles _ (run (Bus.port h limit) _ ops) :=
    settles_run (J := fun b => b.map.Sound) (fun op _ b hb => settles_sound hh.confined hb op) hsound
  rw [hrun] at hend
  refine ⟨past, hrecord, fun d w hnil => ?_, fun d w last earlier heq => ?_, fun d w s hs => ?_,
    hend.aligned, fun q limit t b₁ v b' ht hr hmem hs => slots_of_unserved hh ht hr hmem hs⟩
  · rw [hb.empty d w hnil]
    exact ⟨rfl, Slot.translate_empty⟩
  · obtain ⟨k, hk, hslot⟩ := hb.holds d w last earlier heq
    exact ⟨k, Range.backing_of_served hk, hslot⟩
  · obtain ⟨rfl, rfl⟩ := History.kind_of_mem_since hs
    have hf := hb.faithful _ _ s hs
    obtain ⟨k, hk, hbank, hoffset⟩ := hf.place
    exact ⟨hf.mem, Range.ready_of_served hk, hf.owns, k, Range.backing_of_served hk, hbank, hoffset⟩

/-- A word read in a window that is installed when it is asked for, and then a byte of it: both slots
hold the window, and no other slot holds anything. -/
theorem slots_recall_history_window : ∃ (h : Handler Unit) (installs : Unit → Range → MemoryMap → Bool)
    (banks : Banks) (ops : List Operation) (answers : List Reply) (b : Bus Unit) (past : History),
      h.Declares installs ∧
      run (Bus.port h 1) (Bus.attach h (.ofBanks banks) ()) ops = .ok (answers, b) ∧
      recordAll h installs 1 ops (Bus.attach h (.ofBanks banks) (), []) = .ok (b, past) ∧
      (past.since .read .word).map (·.request.address) = [0x0102] ∧
      (past.since .read .byte).map (·.request.address) = [0x0101] ∧
      b.map.slots.get .write .byte = .empty ∧
      ∃ (r : Range) (k : Backing), r.backing = some k ∧
        b.map.slots.get .read .word = ⟨r.mask ||| 1, r.value, k⟩ := by
  obtain ⟨h, installs, banks, ops, answers, b, past, hh, hrun, hrecord, hword, hbyte, hnone⟩ :
      ∃ (h : Handler Unit) (installs : Unit → Range → MemoryMap → Bool) (banks : Banks)
        (ops : List Operation) (answers : List Reply) (b : Bus Unit) (past : History),
        h.Declares installs ∧
        run (Bus.port h 1) (Bus.attach h (.ofBanks banks) ()) ops = .ok (answers, b) ∧
        recordAll h installs 1 ops (Bus.attach h (.ofBanks banks) (), []) = .ok (b, past) ∧
        (past.since .read .word).map (·.request.address) = [0x0102] ∧
        (past.since .read .byte).map (·.request.address) = [0x0101] ∧
        past.since .write .byte = [] := by
    refine ⟨.installing ⟨.ofRanges [⟨0xFF00, 0x0100, .read, some ⟨0, 0, 1⟩, 0⟩] .guard, .zero,
        Arena.valid_ofRanges rfl rfl rfl (by decide)⟩, _, ⟨#[⟨"ram", ⟨#[7, 9]⟩⟩]⟩,
      [.install ⟨.ofRanges [.ofAccess 0 0 .notify] .guard, .zero,
        Arena.valid_ofRanges rfl rfl rfl (by decide)⟩, .readWord 0x0102, .readByte 0x0101], _, _, _,
      Handler.declares_installing _, rfl, rfl, rfl, rfl, rfl⟩
  obtain ⟨past', hrecord', hempty, hlast, -⟩ := slots_recall_history hh banks () hrun
  obtain rfl : past' = past := congrArg Prod.snd (Except.ok.inj (hrecord'.symm.trans hrecord))
  obtain ⟨last, hsince, -⟩ := List.map_eq_singleton_iff.mp hword
  obtain ⟨k, hk, hslot⟩ := hlast .read .word last [] hsince
  exact ⟨h, installs, banks, ops, answers, b, past', hh, hrun, hrecord, hword, hbyte,
    (hempty .write .byte hnone).1, last.range, k, hk, hslot⟩

end Operation
end MemoryBus
