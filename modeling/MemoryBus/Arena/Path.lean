import MemoryBus.Arena.Basic

/-! Paths along the links of an arena, and what splicing does to them. -/
namespace MemoryBus.Arena

/-- Following the links from `cursor` visits exactly the entries `xs` and leads to `stop`. -/
def Path (g : Arena) : Option Nat → List Nat → Option Nat → Prop
  | cursor, [], stop => cursor = stop
  | cursor, i :: xs, stop => cursor = some i ∧ i < g.size ∧ g.Path (g.next? i) xs stop

variable {g g' : Arena} {cursor stop : Option Nat} {xs ys zs : List Nat} {i before : Nat} {a : UInt32}

theorem path_append :
    g.Path cursor (xs ++ ys) stop ↔ ∃ middle, g.Path cursor xs middle ∧ g.Path middle ys stop := by
  induction xs generalizing cursor with
  | nil => simp [Path]
  | cons i xs ih => simp [Path, ih, and_assoc]

theorem path_congr (hs : g'.size = g.size) (hn : ∀ i ∈ xs, g'.next? i = g.next? i) :
    g'.Path cursor xs stop ↔ g.Path cursor xs stop := by
  induction xs generalizing cursor with
  | nil => rfl
  | cons i xs ih =>
    have hi := hn i (by simp)
    have hxs := fun cursor => @ih cursor fun j hj => hn j (by simp [hj])
    simp only [Path, hs, hi, hxs]

theorem lt_size_of_path (h : g.Path cursor xs stop) (hi : i ∈ xs) : i < g.size := by
  induction xs generalizing cursor with
  | nil => simp at hi
  | cons j xs ih =>
    obtain ⟨-, hj, hxs⟩ := h
    rcases List.mem_cons.mp hi with rfl | hi
    · exact hj
    · exact ih hxs hi

theorem follow_of_path (h : g.Path cursor xs none) {fuel : Nat} (hf : xs.length ≤ fuel) :
    g.follow fuel cursor = xs := by
  induction xs generalizing cursor fuel with
  | nil =>
    obtain rfl : cursor = none := h
    cases fuel <;> rfl
  | cons i xs ih =>
    obtain ⟨rfl, -, hxs⟩ := h
    cases fuel with
    | zero => simp at hf
    | succ fuel => simp [follow, ih hxs (by simpa using hf)]

theorem seek_of_path {fuel depth : Nat} (h : g.Path (g.next? before) (ys ++ i :: zs) none)
    (hys : ∀ j ∈ ys, (g.range j).owns a = false) (hi : (g.range i).owns a = true)
    (hf : ys.length < fuel) :
    g.seek a fuel before depth = ⟨ys.getLastD before, i, depth + ys.length + 1⟩ := by
  induction ys generalizing before fuel depth with
  | nil =>
    cases fuel with
    | zero => simp at hf
    | succ fuel => simp [seek, h.1, hi]
  | cons j ys ih =>
    obtain ⟨hb, -, hj⟩ := h
    cases fuel with
    | zero => simp at hf
    | succ fuel =>
      have hjs := hys j (by simp)
      have hrest : g.seek a fuel j (depth + 1) = ⟨ys.getLastD j, i, depth + 1 + ys.length + 1⟩ :=
        ih hj (fun k hk => hys k (by simp [hk])) (by simpa using hf)
      simp only [seek, hb, hjs, hrest, List.getLastD_cons, List.length_cons]
      simp
      omega

/-! What relinking changes. -/

theorem range_eq (i : Nat) : g.range i = g.ranges[i]?.getD .guard := by simp [range, ranges]

theorem size_eq : g.size = g.ranges.length := by simp [size, ranges]

@[simp] theorem ranges_setNext (next : Option Nat) : (g.setNext i next).ranges = g.ranges := by
  apply List.ext_getElem?
  intro j
  simp only [ranges, setNext, List.getElem?_map, Array.getElem?_toList, Array.getElem?_modify]
  split <;> simp [Function.comp_def]

@[simp] theorem size_setNext (next : Option Nat) : (g.setNext i next).size = g.size := by
  simp [size_eq]

theorem next?_setNext (next : Option Nat) (j : Nat) (hi : i < g.size) :
    (g.setNext i next).next? j = if j = i then next else g.next? j := by
  simp only [next?, setNext, Array.getElem?_modify]
  by_cases h : j = i
  · subst h
    have : g.nodes[j]? = some g.nodes[j] := Array.getElem?_eq_getElem hi
    simp [this]
  · simp [h, Ne.symm h]

@[simp] theorem ranges_promote : (g.promote before i).ranges = g.ranges :=
  (ranges_setNext (g := g.setNext before (g.next? i)) (some g.head)).trans (ranges_setNext (g.next? i))

@[simp] theorem size_promote : (g.promote before i).size = g.size := by simp [size_eq]

@[simp] theorem head_promote : (g.promote before i).head = i := rfl

theorem next?_promote (hb : before < g.size) (hi : i < g.size) (j : Nat) :
    (g.promote before i).next? j =
      if j = i then some g.head else if j = before then g.next? i else g.next? j := by
  have hi' : i < (g.setNext before (g.next? i)).size := by simpa using hi
  have h := next?_setNext (some g.head) j hi'
  rw [next?_setNext (g.next? i) j hb] at h
  exact h

/-- Splicing rearranges the path: what stood before the entry now follows it. -/
theorem path_promote (h : g.Path (some g.head) (xs ++ before :: i :: ys) stop)
    (hd : (xs ++ before :: i :: ys).Nodup) :
    (g.promote before i).Path (some i) (i :: (xs ++ before :: ys)) stop := by
  obtain ⟨middle, hxs, rfl, hb, hnext, hi, hys⟩ := path_append.mp h
  obtain ⟨-, htail, hapart⟩ := List.nodup_append.mp hd
  obtain ⟨⟨hne, hbys⟩, hiys, -⟩ : (before ≠ i ∧ before ∉ ys) ∧ i ∉ ys ∧ ys.Nodup := by simpa using htail
  have hother : ∀ j, j ≠ i → j ≠ before → (g.promote before i).next? j = g.next? j := by
    intro j hj hj'
    rw [next?_promote hb hi, if_neg hj, if_neg hj']
  have hxs' : (g.promote before i).Path (some g.head) xs (some before) := by
    refine (path_congr size_promote ?_).mpr hxs
    intro j hj
    exact hother j (hapart j hj i (by simp)) (hapart j hj before (by simp))
  have hys' : (g.promote before i).Path (g.next? i) ys stop := by
    refine (path_congr size_promote ?_).mpr hys
    intro j hj
    exact hother j (fun h => hiys (h ▸ hj)) (fun h => hbys (h ▸ hj))
  refine ⟨rfl, by simpa using hi, ?_⟩
  rw [next?_promote hb hi, if_pos rfl, path_append]
  refine ⟨some before, hxs', rfl, by simpa using hb, ?_⟩
  rwa [next?_promote hb hi, if_neg hne, if_pos rfl]

end MemoryBus.Arena
