import Mathlib.Data.List.Forall2
import MemoryBus.Proofs.Recency

/-! Two tables whose lists own the same addresses place by place: lookups keep them in step. -/
namespace MemoryBus.Table

variable {t u : Table} {a : UInt32} {as : List UInt32} {i : Nat} {ys zs : List Nat}
  {R : Nat → Nat → Prop}

/-- The list parts at the first entry that owns `a`. That one moves to the front, unless it ends the list. -/
theorem exists_find_split (t : Table) (a : UInt32) : ∃ ys i zs, t.order = ys ++ i :: zs ∧
    (∀ j ∈ ys, (t.entry j).owns a = false) ∧ (t.entry i).owns a = true ∧
    (t.find a).1 = ⟨i, t.entry i, ys.length, decide (ys ≠ [] ∧ zs ≠ [])⟩ ∧
    (t.find a).2.order = if zs = [] then t.order else i :: (ys ++ zs) := by
  have hafter : (t.find a).2.order = (t.find a).2.recency ++ [t.guardIndex] := by
    rw [order_eq, guardIndex_find]
  rcases t.find_cases a with ⟨ys, i, zs, heq, hys, hi, hfound, hrecency⟩ | ⟨hnone, hfound, hrecency⟩
  · refine ⟨ys, i, zs ++ [t.guardIndex], ?_, hys, hi, ?_, ?_⟩
    · simp [order_eq, heq]
    · simp [hfound]
    · simp [hafter, hrecency]
  · refine ⟨t.recency, t.guardIndex, [], t.order_eq, hnone, guard_owns, ?_, ?_⟩
    · simp [hfound]
    · simp [hafter, hrecency, order_eq]

theorem findIdx_of_split {p : Nat → Bool} (hys : ∀ j ∈ ys, p j = false) (hi : p i = true) :
    (ys ++ i :: zs).findIdx p = ys.length := by
  induction ys with
  | nil => simp [List.findIdx_cons, hi]
  | cons j ys ih =>
    have hj := hys j (by simp)
    have hrest := ih fun k hk => hys k (by simp [hk])
    simp [List.findIdx_cons, hj, hrest]

/-- Wherever the list is parted before the first entry that owns `a`, the lookup finds that entry. -/
theorem find_of_split (h : t.order = ys ++ i :: zs) (hys : ∀ j ∈ ys, (t.entry j).owns a = false)
    (hi : (t.entry i).owns a = true) :
    (t.find a).1 = ⟨i, t.entry i, ys.length, decide (ys ≠ [] ∧ zs ≠ [])⟩ ∧
      (t.find a).2.order = if zs = [] then t.order else i :: (ys ++ zs) := by
  obtain ⟨ys', i', zs', h', hys', hi', hfound, horder⟩ := t.exists_find_split a
  have hlength : ys.length = ys'.length := by
    rw [← findIdx_of_split hys hi, ← findIdx_of_split hys' hi', ← h, ← h']
  obtain ⟨rfl, hrest⟩ := List.append_inj (h.symm.trans h') hlength
  obtain ⟨rfl, rfl⟩ := List.cons.inj hrest
  exact ⟨hfound, horder⟩

/-- Both lists have entries in the relation `R` at each place, and entries in that relation own the same
addresses. -/
structure Paired (R : Nat → Nat → Prop) (t u : Table) : Prop where
  owns : ∀ i j, R i j → ∀ a, (t.entry i).owns a = (u.entry j).owns a
  order : List.Forall₂ R t.order u.order

theorem exists_split_of_forall₂ {l : List Nat} (h : List.Forall₂ R (ys ++ i :: zs) l) :
    ∃ ys' i' zs', l = ys' ++ i' :: zs' ∧ List.Forall₂ R ys ys' ∧ R i i' ∧ List.Forall₂ R zs zs' := by
  induction ys generalizing l with
  | nil =>
    obtain ⟨i', zs', hi, hzs, rfl⟩ := List.forall₂_cons_left_iff.mp h
    exact ⟨[], i', zs', rfl, .nil, hi, hzs⟩
  | cons j ys ih =>
    obtain ⟨j', l', hj, hl, rfl⟩ := List.forall₂_cons_left_iff.mp h
    obtain ⟨ys', i', zs', rfl, hys, hi, hzs⟩ := ih hl
    exact ⟨j' :: ys', i', zs', rfl, .cons hj hys, hi, hzs⟩

theorem Paired.not_owns {ys' : List Nat} (h : Paired R t u) (hpairs : List.Forall₂ R ys ys')
    (hys : ∀ j ∈ ys, (t.entry j).owns a = false) : ∀ j ∈ ys', (u.entry j).owns a = false := by
  induction hpairs with
  | nil => simp
  | @cons j j' ys ys' hj _ ih =>
    intro k hk
    rcases List.mem_cons.mp hk with rfl | hk
    · rw [← h.owns j k hj a]
      exact hys j (by simp)
    · exact ih (fun k hk => hys k (by simp [hk])) k hk

/-- A lookup stops at the same place of both lists and does the same to them. -/
theorem Paired.find (h : Paired R t u) (a : UInt32) :
    R (t.find a).1.index (u.find a).1.index ∧ (t.find a).1.depth = (u.find a).1.depth ∧
      (t.find a).1.promoted = (u.find a).1.promoted ∧ Paired R (t.find a).2 (u.find a).2 := by
  obtain ⟨ys, i, zs, heq, hys, hi, hfound, horder⟩ := t.exists_find_split a
  obtain ⟨ys', i', zs', heq', hpairs, hpair, hpairs'⟩ := exists_split_of_forall₂ (heq ▸ h.order)
  have howns : (u.entry i').owns a = true := (h.owns i i' hpair a).symm.trans hi
  obtain ⟨hfound', horder'⟩ := find_of_split heq' (h.not_owns hpairs hys) howns
  have hlength := hpairs.length_eq
  have hlength' := hpairs'.length_eq
  have hnil : ys = [] ↔ ys' = [] := by simp only [← List.length_eq_zero_iff, hlength]
  have hnil' : zs = [] ↔ zs' = [] := by simp only [← List.length_eq_zero_iff, hlength']
  refine ⟨?_, ?_, ?_, ?_, ?_⟩
  · simpa [hfound, hfound'] using hpair
  · simpa [hfound, hfound'] using hlength
  · simp [hfound, hfound', hnil, hnil']
  · intro j j' hj a
    simpa using h.owns j j' hj a
  · rw [horder, horder']
    by_cases hzs : zs = []
    · rw [if_pos hzs, if_pos (hnil'.mp hzs)]
      exact h.order
    · rw [if_neg hzs, if_neg (mt hnil'.mpr hzs)]
      exact .cons hpair (List.rel_append hpairs hpairs')

theorem Paired.after (h : Paired R t u) (as : List UInt32) : Paired R (t.after as) (u.after as) := by
  induction as using List.reverseRecOn with
  | nil => exact h
  | append_singleton as a ih =>
    rw [after_snoc, after_snoc]
    exact (ih.find a).2.2.2

theorem Paired.hits (h : Paired R t u) (as : List UInt32) : List.Forall₂ R (t.hits as) (u.hits as) := by
  induction as using List.reverseRecOn with
  | nil => exact .nil
  | append_singleton as a ih =>
    rw [hits_snoc, hits_snoc]
    have hindex := ((h.after as).find a).1
    exact List.rel_append ih (.cons hindex .nil)

/-- The counters of both tables grow by the same amounts. -/
theorem Paired.exists_growth (h : Paired R t u) (as : List UInt32) : ∃ growth : TableStats,
    (t.after as).stats = t.stats.add growth ∧ (u.after as).stats = u.stats.add growth := by
  induction as using List.reverseRecOn with
  | nil => exact ⟨.zero, rfl, rfl⟩
  | append_singleton as a ih =>
    obtain ⟨growth, ht, hu⟩ := ih
    obtain ⟨-, hdepth, hpromoted, -⟩ := (h.after as).find a
    refine ⟨growth.add ⟨1, ((t.after as).find a).1.depth,
      if ((t.after as).find a).1.promoted then 1 else 0⟩, ?_, ?_⟩
    · simp [after_snoc, stats_find, ht, TableStats.add, Nat.add_assoc]
    · simp [after_snoc, stats_find, hu, TableStats.add, Nat.add_assoc, hdepth, hpromoted]

end MemoryBus.Table
