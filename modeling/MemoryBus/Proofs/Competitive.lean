import Mathlib.Algebra.GroupWithZero.Nat
import Mathlib.Data.Nat.Choose.Basic
import MemoryBus.Proofs.Disjoint
import MemoryBus.Proofs.Recency

/-! Moving to the front against an order that never changes: the potential of a list is the number of
pairs that stand the other way round in the fixed order. -/
namespace MemoryBus

/-! Pairs out of order. -/

/-- The pairs of a list whose first member is the greater one. -/
def inversions : List Nat → Nat
  | [] => 0
  | x :: xs => xs.countP (· < x) + inversions xs

theorem inversions_eq_zero {xs : List Nat} (h : xs.Pairwise (· ≤ ·)) : inversions xs = 0 := by
  induction xs with
  | nil => rfl
  | cons x xs ih =>
    rw [inversions, ih h.of_cons, Nat.add_zero, List.countP_eq_zero]
    intro y hy
    simpa using List.rel_of_pairwise_cons h hy

theorem inversions_le (xs : List Nat) : inversions xs ≤ xs.length * (xs.length - 1) / 2 := by
  rw [← Nat.choose_two_right]
  induction xs with
  | nil => rfl
  | cons x xs ih =>
    have hx : xs.countP (· < x) ≤ xs.length := List.countP_le_length
    rw [inversions, List.length_cons, Nat.choose_succ_succ, Nat.choose_one_right]
    exact Nat.add_le_add hx ih

theorem inversions_middle (xs : List Nat) (x : Nat) (ys : List Nat) :
    inversions (xs ++ x :: ys) =
      inversions (xs ++ ys) + xs.countP (x < ·) + ys.countP (· < x) := by
  induction xs with
  | nil => simp [inversions, Nat.add_comm]
  | cons y xs ih =>
    simp only [List.cons_append, inversions, ih, List.countP_append, List.countP_cons]
    simp only [decide_eq_true_eq]
    omega

/-- There are only `x` numbers below `x`. -/
theorem countP_lt_le {xs : List Nat} (h : xs.Nodup) (x : Nat) : xs.countP (· < x) ≤ x := by
  rw [List.countP_eq_length_filter]
  have hsub : xs.filter (· < x) ⊆ List.range x := by
    intro y hy
    simpa using (List.mem_filter.mp hy).2
  simpa using ((h.filter _).subperm hsub).length_le

/-- What moving `x` to the front costs, with the pairs that it turns, is at most twice `x`. -/
theorem length_add_inversions_le (xs : List Nat) (x : Nat) (ys : List Nat) (h : (xs ++ x :: ys).Nodup) :
    xs.length + inversions (x :: (xs ++ ys)) ≤ 2 * x + inversions (xs ++ x :: ys) := by
  obtain ⟨hxs, -, hne⟩ := List.nodup_append.mp h
  have hbelow : xs.countP (· < x) ≤ x := countP_lt_le hxs x
  have habove : xs.countP (fun y => ¬ decide (y < x)) = xs.countP (x < ·) := by
    refine List.countP_congr fun y hy => ?_
    have : y ≠ x := hne y hy x (by simp)
    simp only [decide_eq_true_eq]
    omega
  have hlength : xs.length = xs.countP (· < x) + xs.countP (x < ·) := by
    rw [← habove]
    exact List.length_eq_countP_add_countP _
  rw [inversions_middle, inversions, List.countP_append]
  omega

namespace Table

variable {t : Table} {order : List Nat} {as : List UInt32} {a : UInt32} {i : Nat}

/-- How many entries a walk along `order` passes before one that owns `a`. -/
def passed (t : Table) (order : List Nat) (a : UInt32) : Nat :=
  order.findIdx fun i => (t.entry i).owns a

/-- The probes of lookups that walk along `order` and leave it as it is. -/
def fixedProbes (t : Table) (order : List Nat) (as : List UInt32) : Nat :=
  (as.map (t.passed order)).sum

theorem passed_append {before after : List Nat} (hb : ∀ j ∈ before, (t.entry j).owns a = false)
    (hi : (t.entry i).owns a = true) : t.passed (before ++ i :: after) a = before.length := by
  have hnone : before.findIdx (fun i => (t.entry i).owns a) = before.length :=
    List.findIdx_eq_length_of_false hb
  rw [passed, List.findIdx_append, hnone, if_neg (Nat.lt_irrefl _), List.findIdx_cons, hi,
    cond_true, Nat.zero_add]

/-- A lookup counts the entries that it passes in the present order. -/
theorem depth_find_eq_passed : (t.find a).1.depth = t.passed t.order a := by
  obtain ⟨ys, i, zs, heq, hys, hi, hfound, -⟩ | ⟨hnone, hfound, -⟩ := t.find_cases a
  · rw [hfound, order_eq, heq, List.append_assoc, List.cons_append, passed_append hys hi]
  · rw [hfound, order_eq, passed_append hnone guard_owns]

/-- Where no other range owns `a`, a walk to the owner passes what stands before it. -/
theorem Disjoint.idxOf_le_passed (ht : t.Disjoint) (horder : order.Perm (List.range t.guardIndex))
    (hi : i < t.guardIndex) (ho : (t.entry i).owns a = true) :
    order.idxOf i ≤ t.passed (order ++ [t.guardIndex]) a := by
  have honly : ∀ j ∈ order, (t.entry j).owns a = true → (j == i) = true := by
    intro j hj hoj
    have hj' : j < t.guardIndex := by simpa using horder.mem_iff.mp hj
    simpa using ht j i a hj' hi hoj ho
  exact (List.findIdx_le_findIdx honly).trans (List.prefix_append order _).findIdx_le

theorem length_le_passed (h : ∀ j ∈ order, (t.entry j).owns a = false) (rest : List Nat) :
    order.length ≤ t.passed (order ++ rest) a := by
  rw [← List.findIdx_eq_length_of_false h]
  exact (List.prefix_append order _).findIdx_le

/-- The pairs of ranges that the list has the other way round than `order`. -/
def turned (t : Table) (order : List Nat) : Nat := inversions (t.recency.map order.idxOf)

theorem nodup_map_idxOf {xs : List Nat} (hxs : xs.Nodup) (hsub : xs ⊆ order) :
    (xs.map order.idxOf).Nodup := by
  refine hxs.map_on fun x hx y _ heq => ?_
  exact (List.idxOf_inj (hsub hx)).mp heq

/-- One lookup: its probes, with the pairs that it turns, are at most twice those of a walk along
`order`. -/
theorem Disjoint.depth_add_turned_le (ht : t.Disjoint)
    (horder : order.Perm (List.range t.guardIndex)) (a : UInt32) :
    (t.find a).1.depth + (t.find a).2.turned order ≤
      2 * t.passed (order ++ [t.guardIndex]) a + t.turned order := by
  obtain ⟨ys, i, zs, heq, hys, hi, hfound, hnew⟩ | ⟨hnone, hfound, hsame⟩ := t.find_cases a
  · have hlt : i < t.guardIndex := mem_recency.mp (by simp [heq])
    have hpassed : order.idxOf i ≤ t.passed (order ++ [t.guardIndex]) a :=
      ht.idxOf_le_passed horder hlt hi
    have hsub : t.recency ⊆ order := (t.recency_perm.trans horder.symm).subset
    have hnodup : (t.recency.map order.idxOf).Nodup := nodup_map_idxOf t.nodup_recency hsub
    have hmove := length_add_inversions_le (ys.map order.idxOf) (order.idxOf i) (zs.map order.idxOf)
      (by simpa [heq] using hnodup)
    simp only [turned, hnew, heq, hfound, List.map_append, List.map_cons, List.length_map] at hmove ⊢
    omega
  · have hlength : t.recency.length ≤ t.passed (order ++ [t.guardIndex]) a := by
      rw [(t.recency_perm.trans horder.symm).length_eq]
      refine length_le_passed (fun j hj => hnone j ?_) _
      exact (t.recency_perm.trans horder.symm).mem_iff.mpr hj
    simp only [turned, hsame, hfound]
    omega

/-- Any number of lookups. -/
theorem Disjoint.probes_add_turned_le (ht : t.Disjoint)
    (horder : order.Perm (List.range t.guardIndex)) (as : List UInt32) :
    (t.after as).stats.probes + (t.after as).turned order ≤
      t.stats.probes + 2 * t.fixedProbes (order ++ [t.guardIndex]) as + t.turned order := by
  induction as using List.reverseRecOn with
  | nil => exact Nat.le_refl _
  | append_singleton as a ih =>
    have horder' : order.Perm (List.range (t.after as).guardIndex) := by rwa [guardIndex_after]
    have hstep := (ht.of_entries entries_after.symm).depth_add_turned_le horder' a
    have hpassed : (t.after as).passed (order ++ [t.guardIndex]) a =
        t.passed (order ++ [t.guardIndex]) a := by simp only [passed, entry_after]
    have hsum : t.fixedProbes (order ++ [t.guardIndex]) (as ++ [a]) =
        t.fixedProbes (order ++ [t.guardIndex]) as + t.passed (order ++ [t.guardIndex]) a := by
      simp [fixedProbes]
    rw [guardIndex_after, hpassed] at hstep
    rw [after_snoc, hsum, stats_find]
    dsimp only
    omega

theorem map_idxOf_self {xs : List Nat} (h : xs.Nodup) : xs.map xs.idxOf = List.range xs.length := by
  apply List.ext_getElem
  · simp
  · intro n hn hn'
    rw [List.getElem_map, List.getElem_range, h.idxOf_getElem]

/-- Where no two ranges share an address, moving to the front makes at most twice the probes that
the same lookups make in the table as it was built, and at most twice those of any other order that
is kept, and one more for each pair of ranges. -/
theorem probes_le_twice_fixed {rs : List Range} {guard : Range} (hbuild : build rs guard = .ok t)
    (ht : t.Disjoint) (as : List UInt32) :
    (t.after as).stats.probes ≤ 2 * (as.map fun a => (t.find a).1.depth).sum ∧
      ∀ order : List Nat, order.Perm (List.range rs.length) → (t.after as).stats.probes ≤
        2 * t.fixedProbes (order ++ [rs.length]) as + rs.length * (rs.length - 1) / 2 := by
  have hguard := guardIndex_of_build hbuild
  have hstats : t.stats.probes = 0 := congrArg TableStats.probes (arena_of_build hbuild).2
  constructor
  · have hrun := ht.probes_add_turned_le t.recency_perm as
    have hturned : t.turned t.recency = 0 := by
      rw [turned, map_idxOf_self t.nodup_recency]
      exact inversions_eq_zero List.pairwise_le_range
    have hsum : (as.map fun a => (t.find a).1.depth).sum =
        t.fixedProbes (t.recency ++ [t.guardIndex]) as := by
      rw [← order_eq]
      simp only [depth_find_eq_passed, fixedProbes]
    omega
  · intro order horder
    have horder' : order.Perm (List.range t.guardIndex) := by rwa [hguard]
    have hrun := ht.probes_add_turned_le horder' as
    have hturned : t.turned order ≤ rs.length * (rs.length - 1) / 2 := by
      simpa [turned, length_recency, hguard] using inversions_le (t.recency.map order.idxOf)
    rw [hguard] at hrun
    omega

/-- Two ranges that take turns: three probes, and only one where the second range stays in front. -/
theorem probes_le_twice_fixed_pair : ∃ t,
    build [.ofAccess 0xFF00 0x0100 .device, .ofAccess 0xFF00 0x0200 .device] .guard = .ok t ∧
      t.Disjoint ∧ (t.after [0x0200, 0x0100, 0x0210]).stats.probes = 3 ∧
      t.fixedProbes ([1, 0] ++ [2]) [0x0200, 0x0100, 0x0210] = 1 ∧
      (t.after [0x0200, 0x0100, 0x0210]).stats.probes ≤
        2 * t.fixedProbes ([1, 0] ++ [2]) [0x0200, 0x0100, 0x0210] + 2 * (2 - 1) / 2 := by
  obtain ⟨t, hbuild, ht, hprobes, hfixed⟩ : ∃ t,
      build [.ofAccess 0xFF00 0x0100 .device, .ofAccess 0xFF00 0x0200 .device] .guard = .ok t ∧
        t.Disjoint ∧ (t.after [0x0200, 0x0100, 0x0210]).stats.probes = 3 ∧
        t.fixedProbes ([1, 0] ++ [2]) [0x0200, 0x0100, 0x0210] = 1 :=
    ⟨⟨.ofRanges _ _, .zero, _⟩, rfl, disjoint_of_mask 0xFF00 (by decide) (by decide), rfl, rfl⟩
  exact ⟨t, hbuild, ht, hprobes, hfixed, (probes_le_twice_fixed hbuild ht _).2 [1, 0] (by decide)⟩

end Table
end MemoryBus
