import MemoryBus.Proofs.Devices
import MemoryBus.Proofs.Retries
import MemoryBus.Proofs.Upholding

/-! Every access comes to an end when the handler can accept only so many notifications. -/
namespace MemoryBus

variable {σ : Type}

/-- `left` bounds how many notifications the handler may still accept. -/
structure Handler.Spends (h : Handler σ) (left : σ → Nat) : Prop where
  accepted : ∀ {s r m}, (h.notify s r m).accepted = true → left (h.notify s r m).state < left s
  declined : ∀ {s r m}, (h.notify s r m).accepted = false → left (h.notify s r m).state ≤ left s
  device : ∀ s r q, left (h.device s r q).state ≤ left s

/-- Accesses stay inside the banks, and at most `n` notifications may still be accepted. -/
def Bus.Ready (left : σ → Nat) (n : Nat) (b : Bus σ) : Prop := b.map.Sound ∧ left b.state ≤ n

variable {h : Handler σ} {left : σ → Nat} {n : Nat}

theorem Handler.Spends.upholds (hl : h.Spends left) : h.Upholds fun b => left b.state ≤ n where
  find _ hb := hb
  fill hb _ _ := hb
  banks hb _ := hb
  device {b} r q hb := by
    rw [Bus.callDevice_state]
    exact (hl.device b.state r q).trans hb
  accepted hb hn := by
    rw [Bus.eq_of_notify hn]
    exact (Nat.le_of_lt (hl.accepted (congrArg Prod.fst hn))).trans hb
  declined _ _ hb hn := by
    rw [Bus.eq_of_notify hn]
    exact (hl.declined (congrArg Prod.fst hn)).trans hb
  unmapped _ _ hb := hb

namespace Bus

variable {b b' : Bus σ} {q : Request} {qs : List Request}

theorem upholds_ready (hh : h.Confined fun _ => True) (hl : h.Spends left) :
    h.Upholds (Ready left n) := (keeps_sound hh).carries.upholds.and hl.upholds

theorem exists_transfer {bank offset : Nat} (hr : b.map.banks.Reaches q.width bank offset) :
    ∃ v b', b.transfer q bank offset = .ok (v, b') := ⟨_, _, transfer_cells hr⟩

theorem Renews.left_lt (hl : h.Spends left) {m : Nat} (hr : Renews h q m b b') :
    left b'.state < left b.state := by
  rw [eq_of_notify hr.accepts]
  exact hl.accepted (congrArg Prod.fst hr.accepts)

/-- Every part is served, whatever the limit, if it allows the notifications that are left. -/
theorem exists_serve (hh : h.Confined fun _ => True) (hl : h.Spends left) (hb : b.map.Sound)
    (hq : q.Aligned) : ∃ v b', ∀ limit, left b.state ≤ limit → b.serve h limit q = .ok (v, b') := by
  -- An accepted notification makes the part a new one, with fewer notifications left.
  induction hn : left b.state using Nat.strong_induction_on generalizing b with
  | h n ih =>
    subst hn
    cases ht : (b.map.slots.get q.direction q.width).translate q.address with
    | some place =>
      obtain ⟨v, b', htransfer⟩ := exists_transfer (hb.reaches_slot ht)
      refine ⟨v, b', fun limit _ => ?_⟩
      simpa only [serve, ht] using htransfer
    | none =>
      rcases found_cases hh ht with ⟨k, hk⟩ | ⟨m, v, b', hsettled⟩ | ⟨m, b₁, hrenews⟩
      · obtain ⟨v, b', htransfer⟩ : ∃ v b', ((b.find q.address).2.remember q.direction q.width
            (b.map.find q.address).1.range k).transfer q k.bank (k.offset q.address) = .ok (v, b') :=
          exists_transfer ((hb.find q.address).reaches_find hk hq)
        exact ⟨v, b', fun limit _ => SettledBy.serve ht (.memory hk htransfer) limit⟩
      · exact ⟨v, b', fun limit _ => hsettled.serve ht limit⟩
      · have hlt := hrenews.left_lt hl
        have hsound : b₁.map.Sound :=
          (keeps_sound hh).carries.upholds.accepted (b := (b.find q.address).2) (hb.find _) hrenews.accepts
        obtain ⟨v, b', hserve⟩ := ih (left b₁.state) hlt hsound rfl
        refine ⟨v, b', fun limit hlimit => ?_⟩
        obtain ⟨limit, rfl⟩ : ∃ limit', limit = limit' + 1 := Nat.exists_eq_add_one.mpr (by omega)
        exact (hrenews.serve hh limit).trans (hserve limit (by omega))

theorem exists_serveEach (hh : h.Confined fun _ => True) (hl : h.Spends left) (hb : b.Ready left n)
    (hqs : ∀ q ∈ qs, q.Aligned) :
    ∃ vs b', ∀ limit, n ≤ limit → b.serveEach h limit qs = .ok (vs, b') := by
  induction qs generalizing b with
  | nil => exact ⟨[], b, fun _ _ => rfl⟩
  | cons q qs ih =>
    have hq : q.Aligned := hqs q (by simp)
    obtain ⟨v, b₁, hserve⟩ := exists_serve hh hl hb.1 hq
    have hb₁ := upholds_serve (upholds_ready hh hl) hb hq (hserve n hb.2)
    obtain ⟨vs, b', hrest⟩ := ih hb₁ fun q hq => hqs q (by simp [hq])
    refine ⟨v :: vs, b', fun limit hlimit => ?_⟩
    simp only [serveEach, hserve limit (hb.2.trans hlimit), hrest limit hlimit, bind, Except.bind]
    rfl

end Bus

namespace Operation

variable {b : Bus σ} {op : Operation} {ops : List Operation}

theorem exists_access (hh : h.Confined fun _ => True) (hl : h.Spends left) (hb : b.Ready left n)
    (hop : op.isAccess = true) :
    ∃ answer b', ∀ limit, n ≤ limit → op.perform (Bus.port h limit) b = .ok (answer, b') := by
  obtain ⟨a, rfl⟩ | hparts := parts_ne_nil hop
  · exact ⟨_, _, fun _ _ => rfl⟩
  · obtain ⟨vs, b', heach⟩ := Bus.exists_serveEach hh hl hb op.aligned_parts
    refine ⟨op.reply vs, b', fun limit hlimit => ?_⟩
    rw [perform_each (Bus.upholds_serve (Bus.upholds_ready hh hl)) (·.1.aligned) hb hparts,
      heach limit hlimit]
    rfl

/-- Accesses come to an end, in the same way for every limit that is large enough. -/
theorem exists_run (hh : h.Confined fun _ => True) (hl : h.Spends left) (hb : b.Ready left n)
    (hops : ∀ op ∈ ops, op.isAccess = true) :
    ∃ answers b', ∀ limit, n ≤ limit → run (Bus.port h limit) b ops = .ok (answers, b') := by
  induction ops generalizing b with
  | nil => exact ⟨[], b, fun _ _ => rfl⟩
  | cons op ops ih =>
    have hop := hops op (by simp)
    obtain ⟨answer, b₁, hperform⟩ := exists_access hh hl hb hop
    have hb₁ := upholds_access (Bus.upholds_ready hh hl) (·.1.aligned) hb hop
      (hperform n (Nat.le_refl n))
    obtain ⟨answers, b', hrest⟩ := ih hb₁ fun op hop => hops op (by simp [hop])
    refine ⟨answer :: answers, b', fun limit hlimit => ?_⟩
    simp only [run, hperform limit hlimit, hrest limit hlimit, bind, Except.bind]
    rfl

end Operation
end MemoryBus
