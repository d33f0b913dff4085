import Mathlib.Data.List.Basic
import MemoryBus.Proofs.Cells

/-! What the devices are asked: one request for each part that a device serves, in the order of the
program, whatever the slots know and however the list stands. -/
namespace MemoryBus

/-- A request that the device of a range has answered. -/
structure Call where
  range : Range
  request : Request
  reply : UInt32
  deriving DecidableEq

variable {σ : Type}

namespace Handler

/-- Writes every call of a device down, and passes it on. -/
def recording (h : Handler σ) : Handler (σ × List Call) where
  name := h.name
  device s r q :=
    let reply := h.device s.1 r q
    ⟨reply.value, (reply.state, s.2 ++ [⟨r, q, reply.value⟩]), reply.remarks⟩
  notify s r m :=
    let reply := h.notify s.1 r m
    ⟨reply.accepted, (reply.state, s.2), reply.map⟩

/-- From state `s` on, the devices are asked these requests, reply this, and come to state `s'`. -/
def Replies (h : Handler σ) (s : σ) : List Call → σ → Prop
  | [], s' => s' = s
  | c :: cs, s' => (h.device s c.range c.request).value = c.reply ∧
      Replies h (h.device s c.range c.request).state cs s'

variable {h : Handler σ} {s s' s'' : σ} {cs cs' : List Call}

theorem Replies.append (hcs : h.Replies s cs s') (hcs' : h.Replies s' cs' s'') :
    h.Replies s (cs ++ cs') s'' := by
  induction cs generalizing s with
  | nil =>
    obtain rfl : s' = s := hcs
    exact hcs'
  | cons c cs ih => exact ⟨hcs.1, ih hcs.2⟩

/-- What is written down is what the devices are asked. -/
theorem replies_recording {x x' : σ × List Call} :
    h.recording.Replies x cs x' ↔ h.Replies x.1 cs x'.1 ∧ x'.2 = x.2 ++ cs := by
  induction cs generalizing x with
  | nil => simp [Replies, Prod.ext_iff]
  | cons c cs ih =>
    rw [Replies, Replies, ih, and_assoc]
    refine and_congr_right fun hreply => and_congr_right fun _ => ?_
    have hlog : (h.recording.device x c.range c.request).state.2 = x.2 ++ [c] :=
      congrArg (fun v => x.2 ++ [⟨c.range, c.request, v⟩]) hreply
    rw [hlog, List.append_assoc]
    rfl

end Handler

namespace Table

/-- The calls of devices that parts with these values make. -/
def calls (t : Table) (qs : List Request) (vs : List UInt32) : List Call :=
  (qs.zip vs).filterMap fun (q, v) => (t.device? q).map fun r => ⟨r, q, v⟩

variable {t : Table} {q : Request} {r : Range}

/-- Apart from the replies, the calls depend on the parts alone. -/
theorem map_calls {qs : List Request} {vs : List UInt32} (hlength : vs.length = qs.length) :
    (t.calls qs vs).map (fun c => (c.range, c.request)) =
      qs.filterMap fun q => (t.device? q).map fun r => (r, q) := by
  induction qs generalizing vs with
  | nil => rfl
  | cons q qs ih =>
    obtain ⟨v, vs, rfl⟩ := List.exists_cons_of_length_eq_add_one hlength
    have hrest := ih (Nat.succ.inj hlength)
    unfold calls at hrest ⊢
    cases hdevice : t.device? q with
    | none => simpa [hdevice] using hrest
    | some r => simpa [hdevice] using hrest

theorem calls_cons (q : Request) (qs : List Request) (v : UInt32) (vs : List UInt32) :
    t.calls (q :: qs) (v :: vs) = t.calls [q] [v] ++ t.calls qs vs := by
  rw [calls, List.zip_cons_cons, ← List.singleton_append, List.filterMap_append]
  rfl

theorem calls_of_none (hq : t.device? q = none) (v : UInt32) : t.calls [q] [v] = [] := by
  simp [calls, hq]

theorem calls_of_some (hq : t.device? q = some r) (v : UInt32) : t.calls [q] [v] = [⟨r, q, v⟩] := by
  simp [calls, hq]

/-- The range of a lookup is the one that owns the address, or the guard if none does. -/
theorem Disjoint.eq_range_find_iff (ht : t.Disjoint) {a : UInt32} : r = (t.find a).1.range ↔
    (∃ i < t.guardIndex, r = t.entry i ∧ (t.entry i).owns a = true) ∨
      r = t.entry t.guardIndex ∧ ∀ i < t.guardIndex, (t.entry i).owns a = false := by
  rw [range_of_find]
  constructor
  · rintro rfl
    rcases Nat.lt_or_eq_of_le (index_find_le (t := t) (a := a)) with hlt | hguard
    · exact .inl ⟨_, hlt, rfl, owns_of_find⟩
    · refine .inr ⟨congrArg t.entry hguard, fun i hi => Bool.eq_false_iff.mpr fun ho => ?_⟩
      exact absurd (index_find_lt hi ho) (by omega)
  · rintro (⟨i, hi, rfl, ho⟩ | ⟨rfl, hnone⟩)
    · rw [ht.index_find hi ho]
    · rcases Nat.lt_or_eq_of_le (index_find_le (t := t) (a := a)) with hlt | hguard
      · exact absurd (owns_of_find.symm.trans (hnone _ hlt)) (by simp)
      · rw [hguard]

end Table

namespace Bus

variable {limit : Nat} {t : Table} {b b' : Bus σ} {q : Request} {qs : List Request}

theorem callDevice_state (h : Handler σ) (b : Bus σ) (r : Range) (q : Request) :
    (b.callDevice h r q).2.state = (h.device b.state r q).state := by
  have hnotes (es : List Event) (b : Bus σ) : (es.foldl note b).state = b.state := by
    induction es generalizing b with
    | nil => rfl
    | cons e es ih => exact ih (b.note e)
  exact hnotes _ _

/-- A part asks its device if it has one, and nothing else changes the state of the handler. -/
theorem serve_replies (h : Handler σ) (limit : Nat) (ht : t.Disjoint) (hn : t.Quiet)
    (hb : b.map.Over t) (hq : q.Aligned) : ∃ v b', b.serve h limit q = .ok (v, b') ∧
      b'.map.Over t ∧ h.Replies b.state (t.calls [q] [v]) b'.state := by
  obtain ⟨v, b', hserve, hreplies⟩ : ∃ v b', b.serve h limit q = .ok (v, b') ∧
      h.Replies b.state (t.calls [q] [v]) b'.state := by
    rcases serve_quiet h limit ht hn hb hq with
      ⟨bank, offset, b₁, hcell, hb₁, hreach, hserve⟩ | ⟨r, b₁, hdevice, -, hb₁, hserve⟩ |
      ⟨b₁, hdevice, -, hb₁, hserve⟩
    · refine ⟨_, _, hserve.trans (transfer_cells hreach), ?_⟩
      rw [Table.calls_of_none (ht.device?_eq_none hcell)]
      exact hb₁.state
    · refine ⟨_, _, hserve, ?_⟩
      have hstate := callDevice_state h b₁ r q
      have hvalue : (b₁.callDevice h r q).1 = (h.device b₁.state r q).value := rfl
      rw [hb₁.state] at hstate hvalue
      rw [Table.calls_of_some hdevice]
      exact ⟨hvalue.symm, hstate⟩
    · refine ⟨_, _, hserve, ?_⟩
      rw [Table.calls_of_none hdevice]
      exact hb₁.state
  exact ⟨v, b', hserve, over_serve ht hn hb hq hserve, hreplies⟩

/-- Parts ask their devices one after the other. -/
theorem serveEach_replies (h : Handler σ) (limit : Nat) (ht : t.Disjoint) (hn : t.Quiet)
    (hb : b.map.Over t) (hqs : ∀ q ∈ qs, q.Aligned) : ∃ vs b',
      b.serveEach h limit qs = .ok (vs, b') ∧ vs.length = qs.length ∧ b'.map.Over t ∧
        h.Replies b.state (t.calls qs vs) b'.state := by
  induction qs generalizing b with
  | nil => exact ⟨[], b, rfl, rfl, hb, rfl⟩
  | cons q qs ih =>
    obtain ⟨v, b₁, hserve, hb₁, hcall⟩ := serve_replies h limit ht hn hb (hqs q (by simp))
    obtain ⟨vs, b', hrest, hlength, hb', hcalls⟩ := ih hb₁ fun q hq => hqs q (by simp [hq])
    refine ⟨v :: vs, b', ?_, congrArg (· + 1) hlength, hb', ?_⟩
    · simp only [serveEach, hserve, hrest, bind, Except.bind]
      rfl
    · rw [Table.calls_cons]
      exact hcall.append hcalls

end Bus

namespace Operation

variable {limit : Nat} {t : Table} {b b' : Bus σ} {op : Operation} {ops : List Operation}

theorem perform_replies (h : Handler σ) (limit : Nat) (ht : t.Disjoint) (hn : t.Quiet)
    (hb : b.map.Over t) (hop : op.parts ≠ []) : ∃ vs b',
      op.perform (Bus.port h limit) b = .ok (op.reply vs, b') ∧ vs.length = op.parts.length ∧
        b'.map.Over t ∧ h.Replies b.state (t.calls op.parts vs) b'.state := by
  obtain ⟨vs, b', heach, hlength, hb', hcalls⟩ :=
    Bus.serveEach_replies h limit ht hn hb op.aligned_parts
  refine ⟨vs, b', ?_, hlength, hb', hcalls⟩
  rw [perform_each (J := fun b => b.map.Over t) (Bus.over_serve ht hn) (·.sound.aligned) hb hop, heach]
  rfl

/-- The accesses of a run, each with the values of its parts. -/
theorem run_replies (h : Handler σ) (limit : Nat) (ht : t.Disjoint) (hn : t.Quiet)
    (hb : b.map.Over t) (hops : ∀ op ∈ ops, op.parts ≠ []) :
    ∃ (accesses : List (Operation × List UInt32)) (b' : Bus σ), accesses.map (·.1) = ops ∧
      (∀ x ∈ accesses, x.2.length = x.1.parts.length) ∧
      run (Bus.port h limit) b ops = .ok (accesses.map fun (op, vs) => op.reply vs, b') ∧
      h.Replies b.state (accesses.flatMap fun (op, vs) => t.calls op.parts vs) b'.state := by
  induction ops generalizing b with
  | nil => exact ⟨[], b, rfl, by simp, rfl, rfl⟩
  | cons op ops ih =>
    obtain ⟨vs, b₁, hop, hlength, hb₁, hcalls⟩ :=
      perform_replies h limit ht hn hb (hops op (by simp))
    obtain ⟨accesses, b', rfl, hlengths, hrun, hrest⟩ := ih hb₁ fun op hop => hops op (by simp [hop])
    refine ⟨(op, vs) :: accesses, b', rfl, ?_, ?_, ?_⟩
    · simpa [hlength] using hlengths
    · simp only [run, hop, hrun, bind, Except.bind]
      rfl
    · exact hcalls.append hrest

/-- In a sound map, where ranges share no address and none notifies the handler, the devices are asked by
a run of accesses as its parts say, one after the other: a part is a call if the range that owns its
address, or the guard if none does, is not ready in this direction and has a device. The call is of that
range and of the whole request, and the reply is the value of the part, of which the access keeps its own
width. Nothing else is asked, whatever the slots know and however the list stands. -/
theorem device_calls (h : Handler σ) (limit : Nat) {m : MemoryMap} (hm : m.Sound)
    (ht : m.table.Disjoint) (hn : m.table.Quiet) (s : σ) (dispatch : Dispatch)
    (hops : ∀ op ∈ ops, op.parts ≠ []) :
    (∀ q r, m.table.device? q = some r ↔
        ((∃ i < m.table.guardIndex, r = m.table.entry i ∧ (m.table.entry i).owns q.address = true) ∨
          r = m.table.entry m.table.guardIndex ∧
            ∀ i < m.table.guardIndex, (m.table.entry i).owns q.address = false) ∧
        r.access.has q.direction.ready = false ∧ r.access.has .device = true) ∧
      ∃ (accesses : List (Operation × List UInt32)) (b' : Bus (σ × List Call)),
        accesses.map (·.1) = ops ∧ (∀ x ∈ accesses, x.2.length = x.1.parts.length) ∧
        run (Bus.port h.recording limit) ⟨m, (s, []), dispatch⟩ ops =
          .ok (accesses.map fun (op, vs) => op.reply vs, b') ∧
        b'.state.2 = accesses.flatMap (fun (op, vs) => m.table.calls op.parts vs) ∧
        b'.state.2.map (fun c => (c.range, c.request)) = (ops.flatMap (·.parts)).filterMap
          (fun q => (m.table.device? q).map fun r => (r, q)) ∧
        h.Replies s b'.state.2 b'.state.1 := by
  constructor
  · intro q r
    rw [ht.device?_eq_some, ← ht.eq_range_find_iff]
    refine and_congr_right fun hr => ?_
    rw [hr, Table.served_find_eq_none]
  · have hb : MemoryMap.Over m.table m := ⟨hm, rfl⟩
    obtain ⟨accesses, b', rfl, hlengths, hrun, hreplies⟩ :=
      run_replies (b := ⟨m, (s, []), dispatch⟩) h.recording limit ht hn hb hops
    obtain ⟨hcalls, hlog⟩ := Handler.replies_recording.mp hreplies
    rw [List.nil_append] at hlog
    refine ⟨accesses, b', rfl, hlengths, hrun, hlog, ?_, hlog ▸ hcalls⟩
    rw [hlog, List.map_flatMap, List.flatMap_map, List.filterMap_flatMap]
    exact List.flatMap_congr fun x hx => Table.map_calls (hlengths x hx)

/-- A window that is memory for reads and a device for writes, under a guard that is a device. -/
theorem device_calls_window : ∃ (h : Handler Unit) (m : MemoryMap) (ops : List Operation)
    (answers : List Reply) (b' : Bus (Unit × List Call)), m.Sound ∧ m.table.Disjoint ∧
      m.table.Quiet ∧ (∀ op ∈ ops, op.parts ≠ []) ∧
      run (Bus.port h.recording 1) ⟨m, ((), []), .zero⟩ ops = .ok (answers, b') ∧
      b'.state.2.map (fun c => (c.range.tag, c.request)) =
        [(1, .write .byte 0x0101 0xAB), (1, .write .byte 0x0102 0xCD), (2, .read .byte 0x0200),
          (2, .read .byte 0x0201), (2, .read .byte 0x0202)] := by
  let ops : List Operation := [.writeWord 0x0101 0xABCD, .readByte 0x0101, .readLong 0x01FF]
  let h : Handler Unit :=
    { name := "echo", device s _ q := ⟨q.address, s, []⟩, notify s _ m := ⟨false, s, m⟩ }
  obtain ⟨m, hm, ht, hn, hasked⟩ : ∃ m : MemoryMap, m.Sound ∧ m.table.Disjoint ∧ m.table.Quiet ∧
      (ops.flatMap (·.parts)).filterMap (fun q => (m.table.device? q).map fun r => (r.tag, q)) =
        [(1, .write .byte 0x0101 0xAB), (1, .write .byte 0x0102 0xCD), (2, .read .byte 0x0200),
          (2, .read .byte 0x0201), (2, .read .byte 0x0202)] := by
    obtain ⟨m, hm⟩ : ∃ m, (MemoryMap.ofBanks ⟨#[⟨"ram", ⟨#[7, 9]⟩⟩]⟩).install
        ⟨.ofRanges [⟨0xFF00, 0x0100, .union .read .device, some ⟨0, 0, 1⟩, 1⟩]
          ⟨0, 0, .device, none, 2⟩, .zero, Arena.valid_ofRanges rfl rfl rfl (by decide)⟩ =
            .ok m := ⟨_, rfl⟩
    obtain ⟨-, htable⟩ := MemoryMap.install_ok hm
    refine ⟨m, .install hm, ?_, ?_, ?_⟩ <;> rw [htable]
    · exact Table.disjoint_of_mask 0xFF00 (by decide) (by decide)
    · unfold Table.Quiet
      decide
    · rfl
  have hops : ∀ op ∈ ops, op.parts ≠ [] := by decide
  obtain ⟨-, accesses, b', -, -, hrun, -, hcalls, -⟩ := device_calls h 1 hm ht hn () .zero hops
  refine ⟨h, m, ops, _, b', hm, ht, hn, hops, hrun, ?_⟩
  have htags := congrArg (List.map fun (r, q) => (Range.tag r, q)) hcalls
  rw [List.map_map, List.map_filterMap] at htags
  refine htags.trans (Eq.trans ?_ hasked)
  simp only [Option.map_map]
  rfl

end Operation
end MemoryBus
