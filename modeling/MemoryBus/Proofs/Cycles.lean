import Mathlib.Algebra.Ring.Int.Defs
import Mathlib.Algebra.Ring.Nat
import MemoryBus.Scenario.ScriptedCore

/-! Budgets of cycles, from the host's scale to the core's and back: no more is lost than a part of one
cycle of the core, and nothing overflows. -/
namespace MemoryBus

variable {γ σ : Type} {o : Core γ σ} {c : Cpu γ} {s : Nat}

/-- A core whose timeslice is a count of cycles. Ending it leaves none, and a change is added to what is left
wherever the sum is a count again. -/
structure Core.Counts (o : Core γ σ) : Prop where
  ended : ∀ k, o.cyclesRemaining (o.endTimeslice k) = 0
  modified : ∀ k n m, (o.cyclesRemaining k).toInt + n.toInt = m.toInt →
    o.cyclesRemaining (o.modifyTimeslice k n) = m

/-- A count that is not negative, shifted in a word of 64 bits. -/
theorem toInt_shiftLeft {x : Int32} (hx : 0 ≤ x.toInt) (hs : s ≤ 31) :
    (x.toInt64 <<< Int64.ofNat s).toInt = x.toInt * 2 ^ s := by
  have hplaces : ∀ s < 32, ((Int64.ofNat s).toBitVec.smod 64).toNat = s := by decide
  have hlt := Int32.toInt_lt x
  have hwide : x.toInt64.toBitVec.toInt = x.toInt := Int32.toInt_toInt64 x
  have hnat : (x.toInt64.toBitVec.toNat : Int) = x.toInt := by
    rw [← hwide]
    refine (BitVec.toInt_eq_toNat_of_lt ?_).symm
    rw [BitVec.toInt_eq_toNat_cond] at hwide
    split at hwide
    · assumption
    · omega
  have hpow : (2 : Int) ^ s ≤ 2 ^ 31 := by
    exact_mod_cast Nat.pow_le_pow_right (by decide) hs
  have hpos : (0 : Int) ≤ x.toInt * 2 ^ s := Int.mul_nonneg hx (Int.pow_nonneg (by decide))
  have hbound : x.toInt * 2 ^ s < 2 ^ 31 * 2 ^ 31 := by
    have := Int.mul_le_mul_of_nonneg_left hpow hx
    omega
  rw [← Int64.toInt_toBitVec, Int64.toBitVec_shiftLeft, BitVec.shiftLeft_eq', hplaces s (by omega),
    BitVec.toInt_shiftLeft, Nat.shiftLeft_eq, Int.natCast_mul, hnat, Int.natCast_pow]
  apply Int.bmod_eq_of_le
  · change -(2 ^ 64 / 2) ≤ x.toInt * 2 ^ s
    omega
  · change x.toInt * 2 ^ s < (2 ^ 64 + 1) / 2
    omega

namespace Cpu

theorem toInt_saturated (n : Nat) : (Int32.ofNat (min n maxCycles)).toInt = (min n (2 ^ 31 - 1) : Nat) := by
  have hle : min n maxCycles < 2 ^ 31 := by
    unfold maxCycles
    omega
  rw [Int32.toInt_ofNat_of_lt hle]
  unfold maxCycles
  omega

theorem toInt_budget (s : Nat) (host : UInt32) :
    (budget s host).toInt = (min (host.toNat / 2 ^ s) (2 ^ 31 - 1) : Nat) := by
  rw [budget, toInt_saturated, Nat.shiftRight_eq_div_pow]

theorem budget_mono {host host' : UInt32} (h : host ≤ host') : budget s host ≤ budget s host' := by
  have hle : host.toNat / 2 ^ s ≤ host'.toNat / 2 ^ s := Nat.div_le_div_right (UInt32.le_iff_toNat_le.mp h)
  rw [Int32.le_iff_toInt_le, toInt_budget, toInt_budget]
  omega

theorem run_eq (c : Cpu γ) (b : Bus σ) (host : UInt32) : c.run o b host =
    (o.execute c.core b (budget c.shift host)).map fun (taken, core, b) => (taken, { c with core }, b) := by
  unfold run
  cases o.execute c.core b (budget c.shift host) <;> rfl

theorem remaining_of_nonneg (h : 0 ≤ (o.cyclesRemaining c.core).toInt) : (c.remaining o).2 = c ∧
    (c.remaining o).1.toInt = min ((o.cyclesRemaining c.core).toInt * 2 ^ c.shift) (2 ^ 31 - 1) := by
  obtain ⟨n, hn⟩ := Int.eq_ofNat_of_zero_le h
  unfold remaining
  rw [if_neg (by omega)]
  refine ⟨rfl, ?_⟩
  simp only
  rw [toInt_saturated, hn, Int.toNat_natCast, Nat.shiftLeft_eq]
  have hcast : ((n * 2 ^ c.shift : Nat) : Int) = n * 2 ^ c.shift := by
    rw [Int.natCast_mul, Int.natCast_pow]
    rfl
  rw [← hcast]
  omega

theorem remaining_of_neg (h : (o.cyclesRemaining c.core).toInt < 0) :
    c.remaining o = (0, { c with core := o.endTimeslice c.core }) := by
  unfold remaining
  exact if_pos h

/-- The core's cycles in a positive number of the host's. -/
theorem toInt_scaled {host : Int32} (hhost : 0 < host.toInt) (s : Nat) :
    (Int32.ofInt (host.toInt >>> s)).toInt = host.toInt / 2 ^ s ∧ 0 ≤ host.toInt / 2 ^ s := by
  have hlt := Int32.toInt_lt host
  have hnonneg : 0 ≤ host.toInt / 2 ^ s := Int.ediv_nonneg (Int.le_of_lt hhost) (Int.pow_nonneg (by decide))
  have hle : host.toInt / 2 ^ s ≤ host.toInt := Int.ediv_le_self _ (Int.le_of_lt hhost)
  have hdiv : host.toInt >>> s = host.toInt / 2 ^ s := by
    rw [Int.shiftRight_eq_div_pow, Int.natCast_pow]
    rfl
  rw [hdiv, Int32.toInt_ofInt_of_le (by omega) (by omega)]
  exact ⟨rfl, hnonneg⟩

/-- What is left after the remainder was set is what was set, rounded down to whole cycles of the core. -/
theorem remaining_setRemaining (ho : o.Counts) (c : Cpu γ) {host : Int32} (hhost : 0 < host.toInt) :
    ((c.setRemaining o host).remaining o).1.toInt = host.toInt - host.toInt % 2 ^ c.shift := by
  obtain ⟨hscaled, hnonneg⟩ := toInt_scaled hhost c.shift
  have hset : c.setRemaining o host = { c with
      core := o.modifyTimeslice (o.endTimeslice c.core) (Int32.ofInt (host.toInt >>> c.shift)) } := by
    unfold setRemaining
    exact if_pos hhost
  have hleft : o.cyclesRemaining (c.setRemaining o host).core = Int32.ofInt (host.toInt >>> c.shift) := by
    rw [hset]
    apply ho.modified
    rw [ho.ended]
    exact Int.zero_add _
  have hlt := Int32.toInt_lt host
  have hwhole := Int.emod_add_mul_ediv host.toInt (2 ^ c.shift)
  have hrest : 0 ≤ host.toInt % 2 ^ c.shift :=
    Int.emod_nonneg host.toInt (Int.ne_of_gt (Int.pow_pos (by decide)))
  obtain ⟨-, hremaining⟩ := remaining_of_nonneg (o := o) (c := c.setRemaining o host) (by
    rw [hleft, hscaled]
    exact hnonneg)
  have hshift : (c.setRemaining o host).shift = c.shift := by rw [hset]
  rw [hremaining, hleft, hscaled, hshift, Int.mul_comm]
  omega

theorem remaining_setRemaining_of_nonpos (ho : o.Counts) (c : Cpu γ) {host : Int32} (hhost : host.toInt ≤ 0) :
    ((c.setRemaining o host).remaining o).1 = 0 := by
  have hset : c.setRemaining o host = { c with core := o.endTimeslice c.core } := by
    unfold setRemaining
    exact if_neg (by omega)
  have hleft : (o.cyclesRemaining (c.setRemaining o host).core).toInt = 0 := by
    rw [hset, ho.ended]
    rfl
  obtain ⟨-, hremaining⟩ := remaining_of_nonneg (o := o) (c := c.setRemaining o host) (by omega)
  rw [← Int32.toInt_inj, hremaining, hleft, Int.zero_mul]
  rfl

/-- Cycles between the two scales, for every scale `s` that an adapter can have and every state of its core. A
budget of the host becomes the whole cycles of the core in it, saturated at the largest count, so that it is never
negative and never falls when the host's grows. What is left of a timeslice is given in cycles of the host,
saturated in the same way, and asking for it leaves the core alone; a core that has overrun is stopped, and nothing is
left. What is set as the remainder is what is left then, less a part of a cycle of the core. -/
theorem cycles_convert (ho : o.Counts) (core : γ) (shift : Nat) (level : UInt8)
    (hc : c = { (withShift core shift).1 with level }) (hs : s = min shift 31) :
    (∀ b host, c.run o b host = (o.execute core b (budget s host)).map fun (taken, core, b) =>
        (taken, { c with core }, b)) ∧
      (∀ host, (budget s host).toInt = (min (host.toNat / 2 ^ s) (2 ^ 31 - 1) : Nat)) ∧
      (∀ host, 0 ≤ budget s host) ∧
      (∀ host host', host ≤ host' → budget s host ≤ budget s host') ∧
      (0 ≤ o.cyclesRemaining core → (c.remaining o).2 = c ∧
        (c.remaining o).1.toInt = min ((o.cyclesRemaining core).toInt * 2 ^ s) (2 ^ 31 - 1) ∧
        ((o.cyclesRemaining core).toInt64 <<< Int64.ofNat s).toInt = (o.cyclesRemaining core).toInt * 2 ^ s) ∧
      (o.cyclesRemaining core < 0 → c.remaining o = (0, { c with core := o.endTimeslice core })) ∧
      ∀ host left, left = ((c.setRemaining o host).remaining o).1 →
        (0 < host → left.toInt = host.toInt - host.toInt % 2 ^ s ∧ left ≤ host ∧
          host.toInt < left.toInt + 2 ^ s) ∧
        (host ≤ 0 → left = 0) := by
  have hcore : c.core = core := by rw [hc]; rfl
  have hshift : c.shift = s := by rw [hc, hs]; rfl
  have hle : s ≤ 31 := hs ▸ Nat.min_le_right shift 31
  subst hcore hshift
  refine ⟨c.run_eq, toInt_budget c.shift, ?_, fun host host' => budget_mono, ?_, ?_, ?_⟩
  · intro host
    rw [Int32.le_iff_toInt_le, toInt_budget]
    exact Int.natCast_nonneg _
  · intro hcount
    have hnonneg := Int32.le_iff_toInt_le.mp hcount
    obtain ⟨hsame, hremaining⟩ := remaining_of_nonneg hnonneg
    exact ⟨hsame, hremaining, toInt_shiftLeft hnonneg hle⟩
  · intro hcount
    exact remaining_of_neg (Int32.lt_iff_toInt_lt.mp hcount)
  · rintro host left rfl
    constructor
    · intro hhost
      have hpos := Int32.lt_iff_toInt_lt.mp hhost
      have hpow : (0 : Int) < 2 ^ c.shift := Int.pow_pos (by decide)
      have hrest := Int.emod_nonneg host.toInt (Int.ne_of_gt hpow)
      have hpart := Int.emod_lt_of_pos host.toInt hpow
      have hleft := remaining_setRemaining ho c hpos
      rw [Int32.le_iff_toInt_le, hleft]
      refine ⟨rfl, ?_, ?_⟩ <;> omega
    · intro hhost
      exact remaining_setRemaining_of_nonpos ho c (Int32.le_iff_toInt_le.mp hhost)

end Cpu

/-- The core of the scenarios keeps such a count. -/
theorem Scenario.ScriptedCore.counts (h : Handler σ) (limit : Nat) :
    (ScriptedCore.core h limit).Counts where
  ended _ := rfl
  modified k n m hsum := by
    have hcount : k.remaining.toInt + n.toInt = m.toInt := hsum
    have hlt := Int32.toInt_lt m
    have hle := Int32.le_toInt m
    change k.remaining + n = m
    rw [← Int32.toInt_inj, Int32.toInt_add, hcount]
    apply Int.bmod_eq_of_le <;> omega

namespace Cpu

open Scenario (ScriptedCore)

/-- A scale of 40 is one of 31, in which the largest budget is one cycle and a count of one saturates. -/
theorem cycles_convert_clamped : ∃ (o : Core ScriptedCore Unit) (core : ScriptedCore) (c : Cpu ScriptedCore),
    o.Counts ∧ c = { (withShift core 40).1 with level := 7 } ∧ 31 = min 40 31 ∧
    (budget 31 0xFFFFFFFF).toInt = 1 ∧
    (c.remaining o).1.toInt = 0x7FFFFFFF ∧ ((c.setRemaining o 0x7FFFFFFF).remaining o).1.toInt = 0 := by
  let o : Core ScriptedCore Unit := ScriptedCore.core (.silent "silent") 0
  let core : ScriptedCore := { ScriptedCore.create true 4 64 with remaining := 1 }
  have ho : o.Counts := ScriptedCore.counts _ _
  obtain ⟨-, hbudget, -, -, hremaining, -, hset⟩ :=
    cycles_convert (c := { (withShift core 40).1 with level := 7 }) (s := 31) ho core 40 7 rfl rfl
  refine ⟨o, core, _, ho, rfl, rfl, ?_, ?_, ?_⟩
  · rw [hbudget]
    decide
  · rw [(hremaining (by decide)).2.1]
    decide
  · rw [((hset _ _ rfl).1 (by decide)).1]
    decide

end Cpu
end MemoryBus
