import MemoryBus.Proofs.Telling

/-! A property of the whole bus that the steps of an access keep is kept by every access. It may speak of
the handler's state, the counters and the names of the banks. -/
namespace MemoryBus

variable {σ : Type} {h : Handler σ} {limit : Nat}

/-- What a property of buses has to survive when accesses are made with handler `h`. -/
structure Handler.Upholds (h : Handler σ) (J : Bus σ → Prop) : Prop where
  find : ∀ {b} a, J b → J (b.find a).2
  fill : ∀ {b d w a k}, J b → (b.map.find a).1.range.served d = some k → (w = .word → a &&& 1 = 0) →
    J ((b.find a).2.remember d w (b.map.find a).1.range k)
  banks : ∀ {b banks}, J b → banks.shape = b.map.banks.shape → J { b with map := { b.map with banks } }
  device : ∀ {b} r q, J b → J (b.countDevice.callDevice h r q).2
  accepted : ∀ {b r b'}, J b → b.notify h r = (true, b') → J b'
  declined : ∀ {b r b'} d a, J b → b.notify h r = (false, b') →
    J ((b'.countRejected.note (.declined r.tag d a)).countFailed)
  unmapped : ∀ {b} d a, J b → J ((b.note (.unmapped d a)).countFailed)

/-- What holds of the bus once it is decided how an access to `a` is served. -/
def Service.Leaves (J : Bus σ → Prop) (d : Direction) (a : UInt32) : Service → Bus σ → Prop
  | .memory r k, b => r.served d = some k ∧ ∃ c, J c ∧ c.find a = ((c.map.find a).1, b) ∧
    r = (c.map.find a).1.range
  | .device _, b => ∃ c, J c ∧ b = c.countDevice
  | .failed, b => J b

namespace Handler

variable {I : MemoryMap → Prop} {J K : Bus σ → Prop}

/-- A property of maps is one of buses. -/
theorem Carries.upholds (hI : h.Carries I) : h.Upholds fun b => I b.map where
  find a hb := hI.find a hb
  fill hb hk ha := hI.fill hb hk ha
  banks hb hshape := hI.banks hb (Banks.sizes_of_shape hshape)
  device {b} r q hb := Bus.callDevice_map (b := b.countDevice) hI.note hb r q
  accepted hb hn := Bus.passes_notify hI.passes hb hn
  declined {b r b'} d a hb hn := by
    have hb' : I b'.map := Bus.passes_notify hI.passes hb hn
    exact hI.note _ hb'
  unmapped d a hb := hI.note _ hb

theorem Upholds.and (hJ : h.Upholds J) (hK : h.Upholds K) : h.Upholds fun b => J b ∧ K b where
  find a hb := ⟨hJ.find a hb.1, hK.find a hb.2⟩
  fill hb hk ha := ⟨hJ.fill hb.1 hk ha, hK.fill hb.2 hk ha⟩
  banks hb hshape := ⟨hJ.banks hb.1 hshape, hK.banks hb.2 hshape⟩
  device r q hb := ⟨hJ.device r q hb.1, hK.device r q hb.2⟩
  accepted hb hn := ⟨hJ.accepted hb.1 hn, hK.accepted hb.2 hn⟩
  declined d a hb hn := ⟨hJ.declined d a hb.1 hn, hK.declined d a hb.2 hn⟩
  unmapped d a hb := ⟨hJ.unmapped d a hb.1, hK.unmapped d a hb.2⟩

end Handler

namespace Bus

variable {J : Bus σ → Prop} {b b' : Bus σ} {d : Direction} {a : UInt32} {q : Request} {s : Service}
  {v : UInt32}

/-- A call of a device changes the handler's state and writes in the journal. -/
theorem callDevice_eq (h : Handler σ) (b : Bus σ) (r : Range) (q : Request) :
    (b.callDevice h r q).2 =
      ⟨{ b.map with journal := .deviceCalled r q (h.device b.state r q).value ::
          ((h.device b.state r q).remarks.reverse ++ b.map.journal) },
        (h.device b.state r q).state, b.dispatch⟩ := by
  have hnotes (es : List Event) (b : Bus σ) : es.foldl note b =
      { b with map := { b.map with journal := es.reverse ++ b.map.journal } } := by
    induction es generalizing b with
    | nil => rfl
    | cons e es ih => exact (ih _).trans (by simp [note, MemoryMap.note])
  simp only [callDevice, hnotes]
  rfl

theorem upholds_resolve (hJ : h.Upholds J) (hb : J b) (hr : b.resolve h d a limit = .ok (s, b')) :
    s.Leaves J d a b' := by
  fun_induction resolve h d a limit b with
  | case1 limit b found b₁ hfind k hk =>
    obtain ⟨rfl, rfl⟩ := Prod.mk.inj ((find_eq b a).symm.trans hfind)
    obtain ⟨rfl, rfl⟩ := Prod.mk.inj (Except.ok.inj hr)
    exact ⟨hk, b, hb, rfl, rfl⟩
  | case2 limit b found b₁ hfind hk hdev =>
    obtain ⟨rfl, rfl⟩ := Prod.mk.inj ((find_eq b a).symm.trans hfind)
    obtain ⟨rfl, rfl⟩ := Prod.mk.inj (Except.ok.inj hr)
    exact ⟨(b.find a).2, hJ.find a hb, rfl⟩
  | case3 => cases hr
  | case4 b found b₁ hfind hk hdev hnot b₂ limit hn ih =>
    obtain ⟨rfl, rfl⟩ := Prod.mk.inj ((find_eq b a).symm.trans hfind)
    exact ih (hJ.accepted (hJ.find a hb) hn) hr
  | case5 limit b found b₁ hfind hk hdev hnot b₂ hn =>
    obtain ⟨rfl, rfl⟩ := Prod.mk.inj ((find_eq b a).symm.trans hfind)
    obtain ⟨rfl, rfl⟩ := Prod.mk.inj (Except.ok.inj hr)
    exact hJ.declined d a (hJ.find a hb) hn
  | case6 limit b found b₁ hfind hk hdev hnot =>
    obtain ⟨rfl, rfl⟩ := Prod.mk.inj ((find_eq b a).symm.trans hfind)
    obtain ⟨rfl, rfl⟩ := Prod.mk.inj (Except.ok.inj hr)
    exact hJ.unmapped d a (hJ.find a hb)

theorem upholds_transfer (hJ : h.Upholds J) (hb : J b) {bank offset : Nat}
    (ht : b.transfer q bank offset = .ok (v, b')) : J b' := by
  obtain ⟨banks, hshape, rfl⟩ := transfer_banks ht
  exact hJ.banks hb hshape

theorem upholds_serve (hJ : h.Upholds J) (hb : J b) (hq : q.Aligned)
    (hs : b.serve h limit q = .ok (v, b')) : J b' := by
  rcases serve_cases hs with ⟨bank, offset, -, ht⟩ | ⟨-, ⟨r, k, b₁, hr, ht⟩ | ⟨r, b₁, hr, hcall⟩ | ⟨hr, -⟩⟩
  · exact upholds_transfer hJ hb ht
  · obtain ⟨hk, c, hc, hfind, rfl⟩ := upholds_resolve hJ hb hr
    obtain rfl : (c.find q.address).2 = b₁ := congrArg Prod.snd hfind
    exact upholds_transfer hJ (hJ.fill hc hk hq) ht
  · obtain ⟨c, hc, rfl⟩ := upholds_resolve hJ hb hr
    obtain rfl : (c.countDevice.callDevice h r q).2 = b' := congrArg Prod.snd hcall
    exact hJ.device r q hc
  · exact upholds_resolve hJ hb hr

end Bus

namespace Operation

variable {J : Bus σ → Prop} {b b' : Bus σ}

theorem upholds_access (hJ : h.Upholds J) (haligned : ∀ {b}, J b → b.map.Aligned) (hb : J b)
    {op : Operation} (hop : op.isAccess = true) {answer : Reply}
    (hperform : op.perform (Bus.port h limit) b = .ok (answer, b')) : J b' :=
  holds_access (G := fun _ _ => True) (fun hb hq _ => Bus.upholds_serve hJ hb hq) hJ.find haligned hb hop
    (fun _ _ _ => trivial) hperform

theorem upholds_run (hJ : h.Upholds J) (haligned : ∀ {b}, J b → b.map.Aligned) (hb : J b)
    {ops : List Operation} (hops : ∀ op ∈ ops, op.isAccess = true) {answers : List Reply}
    (hrun : run (Bus.port h limit) b ops = .ok (answers, b')) : J b' :=
  keeps_run (fun op hop _ _ _ hb => upholds_access hJ haligned hb (hops op hop)) hb hrun

end Operation
end MemoryBus
