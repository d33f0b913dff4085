import MemoryBus.Arena.Path

/-! The arenas that tables are made of: one path visits every entry and ends with the guard. -/
namespace MemoryBus.Arena

variable {g : Arena} {xs : List Nat} {a : UInt32}

/-- The list is `xs` and then the guard, and holds every entry once. -/
structure Threaded (g : Arena) (xs : List Nat) : Prop where
  path : g.Path (some g.head) (xs ++ [g.guardIndex]) none
  perm : xs.Perm (List.range g.guardIndex)

structure Valid (g : Arena) : Prop where
  threaded : ∃ xs, g.Threaded xs
  guard_mask : (g.range g.guardIndex).mask = 0
  guard_value : (g.range g.guardIndex).value = 0
  guard_uncacheable : (g.range g.guardIndex).isCacheable = false
  backed : ∀ i, (g.range i).isCacheable = true → (g.range i).backing.isSome = true

namespace Threaded

theorem guardIndex_lt (h : g.Threaded xs) : g.guardIndex < g.size :=
  lt_size_of_path h.path (by simp)

theorem length_eq (h : g.Threaded xs) : xs.length = g.guardIndex := by
  simpa using h.perm.length_eq

theorem mem_iff (h : g.Threaded xs) {i : Nat} : i ∈ xs ↔ i < g.guardIndex := by
  simpa using h.perm.mem_iff

theorem nodup (h : g.Threaded xs) : (xs ++ [g.guardIndex]).Nodup := by
  have hxs := h.perm.nodup_iff.mpr List.nodup_range
  have hg : g.guardIndex ∉ xs := by simp [h.mem_iff]
  rw [List.nodup_append]
  refine ⟨hxs, by simp, ?_⟩
  rintro i hi j hj rfl
  exact hg (by simpa [List.mem_singleton.mp hj] using hi)

theorem order_eq (h : g.Threaded xs) : g.order = xs ++ [g.guardIndex] := by
  apply follow_of_path h.path
  have := h.guardIndex_lt
  simp [h.length_eq]
  omega

theorem recency_eq (h : g.Threaded xs) : g.recency = xs := by
  simp [recency, h.order_eq]

end Threaded

namespace Valid

theorem threaded_recency (h : g.Valid) : g.Threaded g.recency := by
  obtain ⟨xs, hxs⟩ := h.threaded
  rwa [hxs.recency_eq]

theorem order_eq (h : g.Valid) : g.order = g.recency ++ [g.guardIndex] := h.threaded_recency.order_eq

theorem guard_owns (h : g.Valid) (a : UInt32) : (g.range g.guardIndex).owns a = true := by
  simp [Range.owns, h.guard_mask, h.guard_value]

end Valid

theorem guardIndex_eq : g.guardIndex = g.ranges.length - 1 := by simp [guardIndex, ranges]

/-- A lookup that passes `ys` and stops at `i` leaves the list as it is, or moves `i` to the front
if entries stood before it and some still follow. -/
theorem find_of_path {ys zs : List Nat} {i : Nat} (h : g.Path (some g.head) (ys ++ i :: zs) none)
    (hys : ∀ j ∈ ys, (g.range j).owns a = false) (hi : (g.range i).owns a = true)
    (hn : (ys ++ i :: zs).Nodup) (hs : ys.length ≤ g.size) :
    (g.find a).1 = ⟨i, g.range i, ys.length, decide (ys ≠ [] ∧ zs ≠ [])⟩ ∧
      ((ys = [] ∨ zs = []) ∧ (g.find a).2 = g ∨
        ∃ us before, ys = us ++ [before] ∧ zs ≠ [] ∧ (g.find a).2 = g.promote before i) := by
  cases ys with
  | nil =>
    obtain ⟨hhead, -⟩ := h
    obtain rfl : g.head = i := by simpa using hhead
    simp [find, hi]
  | cons x ys =>
    obtain ⟨hhead, -, hrest⟩ := h
    obtain rfl : g.head = x := by simpa using hhead
    have hx := hys g.head (by simp)
    have hstop : g.seek a g.size g.head 0 = ⟨ys.getLastD g.head, i, 0 + ys.length + 1⟩ :=
      seek_of_path hrest (fun j hj => hys j (by simp [hj])) hi hs
    obtain ⟨-, -, -, -, hnext⟩ := path_append.mp hrest
    cases zs with
    | nil =>
      have hend : g.next? i = none := hnext
      simp [find, hx, hstop, hend]
    | cons z zs =>
      have hsome : g.next? i = some z := hnext.1
      have hlast : g.head :: ys = (g.head :: ys).dropLast ++ [ys.getLastD g.head] := by
        simpa [List.getLast_eq_getLastD] using
          (List.dropLast_concat_getLast (List.cons_ne_nil g.head ys)).symm
      exact ⟨by simp [find, hx, hstop, hsome],
        .inr ⟨_, _, hlast, by simp, by simp [find, hx, hstop, hsome]⟩⟩

/-- What a lookup can do: find the first range that owns `a` and leave it in front of the list, or
find none before the guard and leave the arena as it is. -/
theorem Valid.find_cases (h : g.Valid) (a : UInt32) :
    (∃ ys i zs, g.recency = ys ++ i :: zs ∧ (∀ j ∈ ys, (g.range j).owns a = false) ∧
        (g.range i).owns a = true ∧
        (g.find a).1 = ⟨i, g.range i, ys.length, decide (ys ≠ [])⟩ ∧
        (g.find a).2.Threaded (i :: (ys ++ zs)) ∧ (g.find a).2.ranges = g.ranges) ∨
      (∀ j ∈ g.recency, (g.range j).owns a = false) ∧
        (g.find a).1 = ⟨g.guardIndex, g.range g.guardIndex, g.recency.length, false⟩ ∧
        (g.find a).2 = g := by
  have ht := h.threaded_recency
  cases hk : g.recency.find? fun i => (g.range i).owns a with
  | none =>
    have hnone : ∀ j ∈ g.recency, (g.range j).owns a = false := by simpa using hk
    have hlen : g.recency.length ≤ g.size := ht.length_eq ▸ Nat.le_of_lt ht.guardIndex_lt
    obtain ⟨hfound, hrest⟩ := find_of_path ht.path hnone (h.guard_owns a) ht.nodup hlen
    refine .inr ⟨hnone, by simpa using hfound, ?_⟩
    obtain ⟨-, hg⟩ | ⟨us, before, -, hzs, -⟩ := hrest
    · exact hg
    · exact absurd rfl hzs
  | some i =>
    obtain ⟨hi, ys, zs, heq, hys⟩ := List.find?_eq_some_iff_append.mp hk
    have hys' : ∀ j ∈ ys, (g.range j).owns a = false := by simpa using hys
    have hpath : g.Path (some g.head) (ys ++ i :: (zs ++ [g.guardIndex])) none := by
      simpa [heq] using ht.path
    have hnodup : (ys ++ i :: (zs ++ [g.guardIndex])).Nodup := by simpa [heq] using ht.nodup
    have hperm : (i :: (ys ++ zs)).Perm (List.range g.guardIndex) :=
      List.perm_middle.symm.trans (heq ▸ ht.perm)
    obtain ⟨hfound, hrest⟩ := find_of_path hpath hys' hi hnodup (by
      have hlt := ht.guardIndex_lt
      have hlen := congrArg List.length heq
      simp [ht.length_eq] at hlen
      omega)
    refine .inl ⟨ys, i, zs, heq, hys', hi, by simpa using hfound, ?_⟩
    obtain ⟨hnil, hg⟩ | ⟨us, before, rfl, -, hg⟩ := hrest
    · obtain rfl : ys = [] := hnil.resolve_right (by simp)
      rw [hg]
      exact ⟨⟨by simpa using hpath, hperm⟩, rfl⟩
    · rw [hg]
      have hguard : (g.promote before i).guardIndex = g.guardIndex := by simp [guardIndex_eq]
      refine ⟨⟨?_, by rwa [hguard]⟩, ranges_promote⟩
      have hnew : (g.promote before i).Path (some i)
          (i :: (us ++ before :: (zs ++ [g.guardIndex]))) none :=
        path_promote (by simpa using hpath) (by simpa using hnodup)
      simpa [hguard] using hnew

theorem Valid.find (h : g.Valid) (a : UInt32) : (g.find a).2.Valid := by
  obtain ⟨ys, i, zs, -, -, -, -, ht, hr⟩ | ⟨-, -, hg⟩ := h.find_cases a
  · have hrange : (g.find a).2.range = g.range := funext fun j => by simp only [range_eq, hr]
    have hguard : (g.find a).2.guardIndex = g.guardIndex := by simp only [guardIndex_eq, hr]
    exact {
      threaded := ⟨_, ht⟩
      guard_mask := by simpa only [hguard, hrange] using h.guard_mask
      guard_value := by simpa only [hguard, hrange] using h.guard_value
      guard_uncacheable := by simpa only [hguard, hrange] using h.guard_uncacheable
      backed := by simpa only [hrange] using h.backed }
  · rwa [hg]

/-! New arenas. -/

variable {rs : List Range} {guard : Range}

@[simp] theorem head_ofRanges : (ofRanges rs guard).head = 0 := rfl

@[simp] theorem size_ofRanges : (ofRanges rs guard).size = rs.length + 1 := by
  simp [ofRanges, size]

@[simp] theorem guardIndex_ofRanges : (ofRanges rs guard).guardIndex = rs.length := by
  simp [ofRanges, guardIndex]

@[simp] theorem ranges_ofRanges : (ofRanges rs guard).ranges = rs ++ [guard] := by
  apply List.ext_getElem <;> simp [ofRanges, ranges]

theorem range_ofRanges (i : Nat) : (ofRanges rs guard).range i = (rs ++ [guard])[i]?.getD .guard := by
  cases h : (rs ++ [guard])[i]? <;> simp [ofRanges, range, h]

theorem next?_ofRanges {i : Nat} :
    (ofRanges rs guard).next? i = if i < rs.length then some (i + 1) else none := by
  by_cases h : i < (rs ++ [guard]).length
  · simp [ofRanges, next?, List.getElem?_eq_getElem h]
  · have hi : ¬ i < rs.length := by simp at h; omega
    simp [ofRanges, next?, List.getElem?_eq_none (Nat.le_of_not_lt h), hi]

theorem path_ofRanges {i n : Nat} (h : i + n = rs.length) :
    (ofRanges rs guard).Path (some i) (List.range' i (n + 1)) none := by
  induction n generalizing i with
  | zero => simp [Path, next?_ofRanges]; omega
  | succ n ih =>
    have hi : i < rs.length := by omega
    refine ⟨rfl, by simp; omega, ?_⟩
    rw [next?_ofRanges, if_pos hi]
    exact ih (by omega)

theorem threaded_ofRanges : (ofRanges rs guard).Threaded (List.range rs.length) where
  path := by
    have h : (ofRanges rs guard).Path (some 0) (List.range' 0 (rs.length + 1)) none :=
      path_ofRanges (Nat.zero_add _)
    rw [← List.range_eq_range', List.range_succ] at h
    simpa using h
  perm := by simp

theorem valid_ofRanges (hm : guard.mask = 0) (hv : guard.value = 0) (hc : guard.isCacheable = false)
    (hb : ∀ r ∈ rs, r.isCacheable = true → r.backing.isSome = true) : (ofRanges rs guard).Valid where
  threaded := ⟨_, threaded_ofRanges⟩
  guard_mask := by simpa [range_ofRanges] using hm
  guard_value := by simpa [range_ofRanges] using hv
  guard_uncacheable := by simpa [range_ofRanges] using hc
  backed i hi := by
    rw [range_ofRanges] at hi ⊢
    cases h : (rs ++ [guard])[i]? with
    | none => simp [h, Range.guard, Range.ofAccess, Range.isCacheable, Access.meets, Access.none] at hi
    | some r =>
      simp only [h, Option.getD_some] at hi ⊢
      rcases List.mem_append.mp (List.mem_of_getElem? h) with hr | hr
      · exact hb r hr hi
      · simp [List.mem_singleton.mp hr, hc] at hi

end MemoryBus.Arena
