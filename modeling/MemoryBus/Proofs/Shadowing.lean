import MemoryBus.Proofs.Upholding
import MemoryBus.Proofs.Wide

/-! A handler that answers as another does, and only keeps more in its state, leads every run to the same
answers and the same bus. -/
namespace MemoryBus

variable {σ τ : Type}

/-- `h'` answers as `h` does in the state that `π` makes of its own. -/
structure Handler.Shadows (h' : Handler τ) (h : Handler σ) (π : τ → σ) : Prop where
  value : ∀ s r q, (h'.device s r q).value = (h.device (π s) r q).value
  remarks : ∀ s r q, (h'.device s r q).remarks = (h.device (π s) r q).remarks
  device : ∀ s r q, π (h'.device s r q).state = (h.device (π s) r q).state
  accepted : ∀ s r m, (h'.notify s r m).accepted = (h.notify (π s) r m).accepted
  map : ∀ s r m, (h'.notify s r m).map = (h.notify (π s) r m).map
  notify : ∀ s r m, π (h'.notify s r m).state = (h.notify (π s) r m).state

/-- The bus with another state of the handler. -/
def Bus.through (π : τ → σ) (b : Bus τ) : Bus σ := ⟨b.map, π b.state, b.dispatch⟩

variable {h' : Handler τ} {h : Handler σ} {π : τ → σ} {limit : Nat} {b b' : Bus τ}

theorem Handler.Shadows.free (hs : h'.Shadows h π) (hfree : h.Free) : h'.Free := by
  intro s r m hm
  rw [hs.map]
  exact hfree (π s) r m hm

namespace Bus

theorem notify_through (hs : h'.Shadows h π) (b : Bus τ) (r : Range) :
    (b.through π).notify h r = ((b.notify h' r).1, (b.notify h' r).2.through π) := by
  simp [notify, through, hs.accepted, hs.map, hs.notify]

theorem callDevice_through (hs : h'.Shadows h π) (b : Bus τ) (r : Range) (q : Request) :
    (b.through π).callDevice h r q = ((b.callDevice h' r q).1, (b.callDevice h' r q).2.through π) := by
  refine Prod.ext (hs.value b.state r q).symm ?_
  simp only [callDevice_eq, through, hs.value, hs.remarks, hs.device]

theorem resolve_through (hs : h'.Shadows h π) (b : Bus τ) (d : Direction) (a : UInt32) :
    (b.through π).resolve h d a limit =
      (b.resolve h' d a limit).map fun (s, c) => (s, c.through π) := by
  have hfind (b : Bus τ) : (b.through π).find a = ((b.find a).1, (b.find a).2.through π) := rfl
  fun_induction resolve h' d a limit b with
  | case1 limit b found b₁ hb k hk =>
    unfold resolve
    simp only [hfind, hb, hk]
    rfl
  | case2 limit b found b₁ hb hk hdev =>
    unfold resolve
    simp only [hfind, hb, hk, hdev, if_true]
    rfl
  | case3 b found b₁ hb hk hdev hnot b₂ hn =>
    unfold resolve
    simp only [hfind, hb, hk, hdev, hnot, notify_through hs, hn, if_true]
    rfl
  | case4 b found b₁ hb hk hdev hnot b₂ limit hn ih =>
    rw [← ih]
    conv_lhs => unfold resolve
    simp only [hfind, hb, hk, hdev, hnot, notify_through hs, hn, if_true]
    rfl
  | case5 limit b found b₁ hb hk hdev hnot b₂ hn =>
    unfold resolve
    simp only [hfind, hb, hk, hdev, hnot, notify_through hs, hn, if_true]
    rfl
  | case6 limit b found b₁ hb hk hdev hnot =>
    unfold resolve
    simp only [hfind, hb, hk, hdev, hnot]
    rfl

theorem transfer_through (b : Bus τ) (q : Request) (bank offset : Nat) :
    (b.through π).transfer q bank offset =
      (b.transfer q bank offset).map fun (v, c) => (v, c.through π) := by
  unfold transfer
  split
  · change (b.map.banks.readByte bank offset).map _ = _
    cases b.map.banks.readByte bank offset <;> rfl
  · change (b.map.banks.readWord bank offset).map _ = _
    cases b.map.banks.readWord bank offset <;> rfl
  · simp only [putByte, through]
    cases b.map.writeByte bank offset q.value.toUInt8 <;> rfl
  · simp only [putWord, through]
    cases b.map.writeWord bank offset q.value.toUInt16 <;> rfl

theorem serve_through (hs : h'.Shadows h π) (b : Bus τ) (q : Request) :
    (b.through π).serve h limit q = (b.serve h' limit q).map fun (v, c) => (v, c.through π) := by
  have hslots : (b.through π).map.slots = b.map.slots := rfl
  unfold serve
  rw [hslots]
  cases (b.map.slots.get q.direction q.width).translate q.address with
  | some place => exact transfer_through b q place.1 place.2
  | none =>
    simp only [resolve_through hs]
    cases b.resolve h' q.direction q.address limit with
    | error e => rfl
    | ok result =>
      obtain ⟨s, c⟩ := result
      cases s with
      | memory r k => exact transfer_through (c.remember q.direction q.width r k) q k.bank _
      | device r => exact congrArg Except.ok (callDevice_through hs c r q)
      | failed => rfl

theorem serveEach_through (hs : h'.Shadows h π) (b : Bus τ) (qs : List Request) :
    (b.through π).serveEach h limit qs =
      (b.serveEach h' limit qs).map fun (vs, c) => (vs, c.through π) := by
  induction qs generalizing b with
  | nil => rfl
  | cons q qs ih =>
    simp only [serveEach, serve_through hs, bind, Except.bind]
    cases b.serve h' limit q with
    | error e => rfl
    | ok result =>
      obtain ⟨v, c⟩ := result
      simp only [Except.map, ih]
      cases c.serveEach h' limit qs <;> rfl

end Bus

namespace Operation

theorem settle_through (b : Bus τ) (x : Except MemoryError MemoryMap) :
    settle (b.through π) x = ((settle b x).1, (settle b x).2.through π) := by
  cases x <;> rfl

theorem perform_through (hs : h'.Shadows h π) (hfree : h.Free) (hb : b.map.Reachable) (op : Operation) :
    op.perform (Bus.port h limit) (b.through π) =
      (op.perform (Bus.port h' limit) b).map fun (answer, c) => (answer, c.through π) := by
  have hparts (hne : op.parts ≠ []) : op.perform (Bus.port h limit) (b.through π) =
      (op.perform (Bus.port h' limit) b).map fun (answer, c) => (answer, c.through π) := by
    rw [perform_each (J := fun b => b.map.Reachable) (Bus.carries_serve (carries_reachable hfree))
        MemoryMap.Reachable.aligned hb hne,
      perform_each (J := fun b => b.map.Reachable)
        (Bus.carries_serve (carries_reachable (hs.free hfree))) MemoryMap.Reachable.aligned hb hne,
      Bus.serveEach_through hs]
    cases b.serveEach h' limit op.parts <;> rfl
  cases op with
  | find a => rfl
  | install t => exact congrArg Except.ok (settle_through b _)
  | reinstall => exact congrArg Except.ok (settle_through b _)
  | restore s => exact congrArg Except.ok (settle_through b _)
  | loadImage i path file => rfl
  | addBank name bytes => rfl
  | overwriteBank i offset bytes => rfl
  | resetStats => rfl
  | _ => exact hparts (by simp [parts])

/-- The runs of `h` are those of `h'`. -/
theorem run_through (hs : h'.Shadows h π) (hfree : h.Free) (hb : b.map.Reachable) (ops : List Operation) :
    run (Bus.port h limit) (b.through π) ops =
      (run (Bus.port h' limit) b ops).map fun (answers, c) => (answers, c.through π) := by
  induction ops generalizing b with
  | nil => rfl
  | cons op ops ih =>
    simp only [run, perform_through hs hfree hb, bind, Except.bind]
    cases hop : op.perform (Bus.port h' limit) b with
    | error e => rfl
    | ok result =>
      obtain ⟨answer, c⟩ := result
      simp only [Except.map, ih (reachable_perform (hs.free hfree) hb hop)]
      cases run (Bus.port h' limit) c ops <;> rfl

end Operation
end MemoryBus
