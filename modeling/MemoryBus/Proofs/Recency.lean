import Mathlib.Data.Finset.Card
import Mathlib.Data.List.Basic
import MemoryBus.Proofs.Lookup

/-! The list of a table after any number of lookups: what was found last stands first. -/
namespace MemoryBus

/-! Distinct members of a list. -/

theorem eraseDups_filter (p : Nat → Bool) : ∀ l : List Nat, (l.filter p).eraseDups = l.eraseDups.filter p
  | [] => rfl
  | a :: l => by
    have : (l.filter fun b => !b == a).length < l.length + 1 :=
      Nat.lt_succ_of_le (List.length_filter_le _ _)
    have ih := eraseDups_filter p (l.filter fun b => !b == a)
    rw [List.eraseDups_cons]
    by_cases h : p a = true
    · rw [List.filter_cons_of_pos h, List.filter_cons_of_pos h, List.eraseDups_cons, ← ih,
        List.filter_filter, List.filter_filter]
      simp only [Bool.and_comm]
    · have hsame : (l.filter fun b => !b == a).filter p = l.filter p := by
        rw [List.filter_filter]
        apply List.filter_congr
        intro b _
        by_cases hb : b = a <;> simp_all
      rw [List.filter_cons_of_neg h, List.filter_cons_of_neg h, ← ih, hsame]
termination_by l => l.length

theorem length_eraseDups : ∀ l : List Nat, l.eraseDups.length = l.toFinset.card
  | [] => rfl
  | a :: l => by
    have : (l.filter fun b => !b == a).length < l.length + 1 :=
      Nat.lt_succ_of_le (List.length_filter_le _ _)
    have ih := length_eraseDups (l.filter fun b => !b == a)
    have hrest : insert a (l.filter fun b => !b == a).toFinset = insert a l.toFinset := by
      ext b
      by_cases hb : b = a <;> simp [hb]
    have ha : a ∉ (l.filter fun b => !b == a).toFinset := by simp
    rw [List.eraseDups_cons, List.length_cons, ih, List.toFinset_cons, ← hrest,
      Finset.card_insert_of_notMem ha]
termination_by l => l.length

namespace Table

/-- What each of these lookups returns, the first first, and the table after them all. -/
def findAll (t : Table) : List UInt32 → List Lookup × Table
  | [] => ([], t)
  | a :: as =>
    let (found, t) := t.find a
    let (rest, t) := t.findAll as
    (found :: rest, t)

def after (t : Table) (as : List UInt32) : Table := (t.findAll as).2

/-- The entries that these lookups return. -/
def hits (t : Table) (as : List UInt32) : List Nat := (t.findAll as).1.map (·.index)

variable {t : Table} {as : List UInt32} {a : UInt32}

theorem findAll_append (as bs : List UInt32) : t.findAll (as ++ bs) =
    ((t.findAll as).1 ++ ((t.after as).findAll bs).1, ((t.after as).findAll bs).2) := by
  induction as generalizing t with
  | nil => simp [findAll, after]
  | cons a as ih => simp [findAll, after, ih]

theorem after_snoc : t.after (as ++ [a]) = ((t.after as).find a).2 := by
  simp [after, findAll_append, findAll]

theorem hits_snoc : t.hits (as ++ [a]) = t.hits as ++ [((t.after as).find a).1.index] := by
  simp [hits, findAll_append, findAll]

@[simp] theorem entries_after : (t.after as).entries = t.entries := by
  induction as using List.reverseRecOn with
  | nil => rfl
  | append_singleton as a ih => rw [after_snoc, entries_find, ih]

@[simp] theorem guardIndex_after : (t.after as).guardIndex = t.guardIndex := by simp [guardIndex_eq]

@[simp] theorem entry_after (i : Nat) : (t.after as).entry i = t.entry i := by simp [entry_eq]

/-- The ranges found so far, the last one first, and then those never found, as they stood. -/
theorem recency_after : (t.after as).recency =
    ((t.hits as).reverse.filter (· ≠ t.guardIndex)).eraseDups ++ t.recency.filter (· ∉ t.hits as) := by
  induction as using List.reverseRecOn with
  | nil => simp [after, hits, findAll]
  | append_singleton as a ih =>
    have hle := index_find_le (t := t.after as) (a := a)
    rw [guardIndex_after] at hle
    rw [after_snoc, hits_snoc]
    generalize hi : ((t.after as).find a).1.index = i at hle
    rcases Nat.lt_or_eq_of_le hle with hlt | rfl
    · have hrec := recency_find_of_lt (t := t.after as) (a := a) (by simpa [hi] using hlt)
      rw [hrec, hi, ih, List.filter_append, List.reverse_append, List.reverse_singleton,
        List.singleton_append, List.filter_cons_of_pos (by simpa using Nat.ne_of_lt hlt),
        List.eraseDups_cons, List.cons_append, ← eraseDups_filter]
      congr 2
      · congr 1
        exact List.filter_congr fun j _ => by by_cases hj : j = i <;> simp [hj]
      · rw [List.filter_filter]
        exact List.filter_congr fun j _ => by simp [and_comm]
    · have hrec := recency_find_of_guard (t := t.after as) (a := a) (by simpa using hi)
      rw [hrec, ih]
      congr 1
      · simp
      · refine List.filter_congr fun j hj => ?_
        have hj' : j ≠ t.guardIndex := Nat.ne_of_lt (mem_recency.mp hj)
        simp [hj']

theorem depth_find : (t.find a).1.depth = t.order.idxOf (t.find a).1.index := by
  obtain ⟨hget, -⟩ := find_first (t := t) (a := a)
  obtain ⟨hlt, hget⟩ := List.getElem?_eq_some_iff.mp hget
  rw [← hget, t.nodup_order.idxOf_getElem]

/-- A range that was found before stands behind exactly the ranges found since. -/
theorem idxOf_order_after {i : Nat} {before since : List Nat} (hi : i ≠ t.guardIndex)
    (heq : t.hits as = before ++ i :: since) (hsince : i ∉ since) :
    (t.after as).order.idxOf i = (since.toFinset.erase t.guardIndex).card := by
  have hrecent : ((t.hits as).reverse.filter (· ≠ t.guardIndex)).eraseDups =
      (since.reverse.filter (· ≠ t.guardIndex)).eraseDups ++
        i :: ((before.reverse.filter (· ≠ t.guardIndex)).removeAll
          (since.reverse.filter (· ≠ t.guardIndex)) |>.filter (! · == i)).eraseDups := by
    have hi' : i ∉ since.reverse.filter (· ≠ t.guardIndex) := by simp [hsince]
    rw [heq, List.reverse_append, List.reverse_cons, List.append_assoc, List.filter_append,
      List.singleton_append, List.filter_cons_of_pos (by simpa using hi), List.eraseDups_append,
      List.cons_removeAll, if_pos (by simpa using hi'), List.eraseDups_cons]
  have hi' : i ∉ (since.reverse.filter (· ≠ t.guardIndex)).eraseDups := by
    simp [List.mem_eraseDups, hsince]
  rw [order_eq, recency_after, hrecent, List.append_assoc, List.append_assoc,
    List.idxOf_append_of_notMem hi', List.cons_append, List.idxOf_cons_self, Nat.add_zero,
    length_eraseDups]
  congr 1
  ext j
  simp [and_comm]

/-- Move to front over a whole history of lookups: how the list stands after the lookups `as`, what
the next lookup returns and counts, and how far it walks to a range that was returned before. -/
theorem moveToFront {rs : List Range} {guard : Range} (hbuild : build rs guard = .ok t)
    (as : List UInt32) (a : UInt32) {found : Lookup} {next : Table}
    (hfind : (t.after as).find a = (found, next)) :
    (t.after as).order = ((t.hits as).reverse.filter (· ≠ rs.length)).eraseDups ++
        (List.range rs.length).filter (· ∉ t.hits as) ++ [rs.length] ∧
      (t.after as).entries = rs ++ [guard] ∧
      (t.after as).order[found.depth]? = some found.index ∧
      (∀ i ∈ (t.after as).order.take found.depth, (t.entry i).owns a = false) ∧
      found.range = t.entry found.index ∧ found.range.owns a = true ∧
      next.stats.lookups = (t.after as).stats.lookups + 1 ∧
      next.stats.probes = (t.after as).stats.probes + found.depth ∧
      next.stats.promotions = (t.after as).stats.promotions +
        (if found.depth ≠ 0 ∧ found.index ≠ rs.length then 1 else 0) ∧
      (found.index = rs.length → found.depth = rs.length) ∧
      ∀ before since, found.index ≠ rs.length → t.hits as = before ++ found.index :: since →
        found.index ∉ since → found.depth = (since.toFinset.erase rs.length).card := by
  obtain rfl : ((t.after as).find a).1 = found := congrArg Prod.fst hfind
  obtain rfl : ((t.after as).find a).2 = next := congrArg Prod.snd hfind
  have hguard := guardIndex_of_build hbuild
  have hdepth := depth_find (t := t.after as) (a := a)
  obtain ⟨hget, hbefore⟩ := find_first (t := t.after as) (a := a)
  refine ⟨?_, ?_, hget, by simpa using hbefore, ?_, ?_, rfl, rfl, ?_, ?_, ?_⟩
  · rw [order_eq, recency_after, guardIndex_after, recency_of_build hbuild, hguard]
  · rw [entries_after, entries_of_build hbuild]
  · rw [range_of_find, entry_after]
  · rw [range_of_find]
    exact owns_of_find
  · simp [stats_find, promoted_find, hguard]
  · intro hi
    have hmem : rs.length ∉ (t.after as).recency := by simp [hguard]
    rw [hdepth, hi, order_eq, guardIndex_after, hguard, List.idxOf_append_of_notMem hmem,
      List.idxOf_cons_self, length_recency, guardIndex_after, hguard, Nat.add_zero]
  · intro before since hi heq hsince
    rw [hdepth, idxOf_order_after (hguard ▸ hi) heq hsince, hguard]

/-- The second range, found again after the first, stands one behind the front. -/
theorem moveToFront_pair : ∃ t found next,
    build [.ofAccess 0xFF00 0x0100 .device, .ofAccess 0xFF00 0x0200 .device] .guard = .ok t ∧
      (t.after [0x0200, 0x0100]).find 0x0210 = (found, next) ∧
      t.hits [0x0200, 0x0100] = [] ++ found.index :: [0] ∧
      found.depth = (([0] : List Nat).toFinset.erase 2).card := by
  refine ⟨⟨.ofRanges _ _, .zero, _⟩, _, _, rfl, rfl, rfl, ?_⟩
  have hbuild : build [.ofAccess 0xFF00 0x0100 .device, .ofAccess 0xFF00 0x0200 .device] .guard =
      .ok ⟨.ofRanges _ _, .zero, _⟩ := rfl
  obtain ⟨-, -, -, -, -, -, -, -, -, -, hdepth⟩ := moveToFront hbuild [0x0200, 0x0100] 0x0210 rfl
  exact hdepth [] [0] (by decide) rfl (by decide)

/-- The guard stays where it is, so a lookup that returns it again passes every range, also when no
range was returned in between. -/
theorem guard_not_within_since : ¬ ∀ (rs : List Range) (guard : Range) (t : Table),
    build rs guard = .ok t → ∀ as a found next, (t.after as).find a = (found, next) →
      ∀ before since, t.hits as = before ++ found.index :: since → found.index ∉ since →
        next.stats.probes = (t.after as).stats.probes + (since.toFinset.erase rs.length).card := by
  intro h
  have hguard := h [.ofAccess 0xFF00 0x0100 .device] .guard _ rfl [0] 0 _ _ rfl [] [] rfl (by simp)
  revert hguard
  decide

end Table
end MemoryBus
