import Mathlib.Logic.Function.Iterate
import Mathlib.Logic.Relation
import MemoryBus.Proofs.Rebuilding

/-! Walks along the links of a table, taken turn by turn with nothing promised of the links: one may lead out of
the arena, and they may go round for ever. In no table that a program can get hold of do they do either. -/
namespace MemoryBus

namespace Arena

variable {g : Arena} {cursor stop : Option Nat} {xs ys : List Nat} {i last : Nat}

theorem getElem?_nodes (hi : i < g.size) : g.nodes[i]? = some (g.node i) := by
  have hi' : i < g.nodes.size := hi
  simp [node, hi']

theorem next_node (i : Nat) : (g.node i).next = g.next? i := by
  unfold node next?
  cases g.nodes[i]? <;> rfl

/-- A path that does not end at once starts with its first entry. -/
theorem exists_start_of_path (h : g.Path cursor (xs ++ i :: ys) stop) :
    ∃ j ∈ xs ++ [i], cursor = some j ∧ j < g.size := by
  cases xs with
  | nil => exact ⟨i, by simp, h.1, h.2.1⟩
  | cons j xs => exact ⟨j, by simp, h.1, h.2.1⟩

/-- Of the entries on a path that leads nowhere only the last has no link. -/
theorem next?_eq_none_iff_of_path (h : g.Path cursor (xs ++ [last]) none) (hn : (xs ++ [last]).Nodup)
    (hi : i ∈ xs ++ [last]) : g.next? i = none ↔ i = last := by
  constructor
  · intro hnone
    rcases List.mem_append.mp hi with hxs | hlast
    · obtain ⟨us, vs, rfl⟩ := List.append_of_mem hxs
      rw [List.append_assoc, List.cons_append] at h
      obtain ⟨-, -, -, -, hrest⟩ := path_append.mp h
      obtain ⟨j, -, hj, -⟩ := exists_start_of_path hrest
      exact absurd (hnone.symm.trans hj) (by simp)
    · exact List.mem_singleton.mp hlast
  · rintro rfl
    obtain ⟨-, -, -, -, hend⟩ := path_append.mp h
    exact hend

/-! Iterators. -/

/-- One call of an iterator that stands at `cursor`: what it yields, and where it stands then. There is no
answer for a cursor outside the arena. -/
def advance? (g : Arena) : Option Nat → Option (Option (Nat × Node) × Option Nat)
  | none => some (none, none)
  | some i => g.nodes[i]?.map fun n => (some (i, n), n.next)

/-- What each of so many calls yields. -/
def calls? (g : Arena) : Nat → Option Nat → Option (List (Option (Nat × Node)))
  | 0, _ => some []
  | n + 1, cursor => do
    let (item, cursor) ← g.advance? cursor
    let items ← g.calls? n cursor
    return item :: items

/-- An iterator yields the entries of its path one by one, and nothing more for as long as it is called. -/
theorem calls?_of_path (h : g.Path cursor xs none) (n : Nat) : g.calls? n cursor =
    some ((List.range n).map fun k => xs[k]?.map fun i => (i, g.node i)) := by
  induction n generalizing cursor xs with
  | zero => rfl
  | succ n ih =>
    rw [List.range_succ_eq_map]
    cases xs with
    | nil =>
      obtain rfl : cursor = none := h
      have hend : g.Path none [] none := rfl
      have hrest : g.calls? n none = some ((List.range n).map fun _ => none) := by simpa using ih hend
      simp [calls?, advance?, hrest, Function.comp_def]
    | cons i xs =>
      obtain ⟨rfl, hi, hxs⟩ := h
      simp [calls?, advance?, getElem?_nodes hi, next_node, ih hxs, Function.comp_def]

end Arena

/-- What a table is made of, with nothing promised of its links. -/
structure TableData where
  arena : Arena
  stats : TableStats
  deriving DecidableEq

def Table.data (t : Table) : TableData := ⟨t.arena, t.stats⟩

/-- Where a lookup stands after some turns of its loop. -/
inductive Search
  /-- No entry as far as `before` owns the address, and the next turn follows the link of that one. -/
  | passed (d : TableData) (before : Nat)
  | found (d : TableData) (index : Nat)
  /-- The list has ended with an entry that does not own the address. -/
  | missed (d : TableData) (last : Nat)
  /-- An index that the lookup needs is outside the arena. -/
  | outside (index : Nat)
  deriving DecidableEq

namespace TableData

variable {d : TableData} {a : UInt32}

def looked (d : TableData) : TableData := { d with stats.lookups := d.stats.lookups + 1 }

def probed (d : TableData) (n : Nat) : TableData := { d with stats.probes := d.stats.probes + n }

def promoted (d : TableData) (before i : Nat) : TableData :=
  ⟨d.arena.promote before i, { d.stats with promotions := d.stats.promotions + 1 }⟩

def resetStats (d : TableData) : TableData := { d with stats := .zero }

@[simp] theorem arena_looked : d.looked.arena = d.arena := rfl

@[simp] theorem arena_probed (n : Nat) : (d.probed n).arena = d.arena := rfl

theorem probed_probed (m n : Nat) : (d.probed m).probed n = d.probed (m + n) := by
  simp [probed, Nat.add_assoc]

/-- A lookup before the first turn of its loop. -/
def search (d : TableData) (a : UInt32) : Search :=
  match d.arena.nodes[d.arena.head]? with
  | none => .outside d.arena.head
  | some n => if n.range.owns a then .found d.looked d.arena.head else .passed d.looked d.arena.head

theorem search_eq (h : d.arena.head < d.arena.size) : d.search a =
    if (d.arena.range d.arena.head).owns a then .found d.looked d.arena.head
    else .passed d.looked d.arena.head := by
  simp [search, Arena.getElem?_nodes h, Arena.range_node]

end TableData

namespace Search

variable {d d' : TableData} {a : UInt32} {s s' : Search} {xs ys : List Nat} {before i j m n : Nat}

/-- One turn of the loop of a lookup. One that has ended stays as it is. -/
def turn (a : UInt32) : Search → Search
  | passed d before =>
    match d.arena.nodes[before]? with
    | none => outside before
    | some p =>
      match p.next with
      | none => missed d before
      | some i =>
        match d.arena.nodes[i]? with
        | none => outside i
        | some n =>
          if n.range.owns a then
            match n.next with
            | none => found (d.probed 1) i
            | some _ => found ((d.probed 1).promoted before i) i
          else passed (d.probed 1) i
  | s => s

/-- The entry that a lookup returns, which is the last of the list where it has missed, and the table after it. -/
def returned? : Search → Option (Nat × TableData)
  | found d i | missed d i => some (i, d)
  | passed .. | outside _ => none

/-- A lookup that finds an entry after some number of turns ends in no other way after any number. -/
theorem eq_of_iterate_turn (hs : (turn a)^[m] s = s') (hs' : turn a s' = s')
    (hfound : (turn a)^[n] s = found d i) : s' = found d i :=
  -- Either end stays as it is, so both are where `n + m` turns lead.
  calc
    s' = (turn a)^[n] s' := (Function.iterate_fixed hs' n).symm
    _ = (turn a)^[n + m] s := by rw [Function.iterate_add_apply, hs]
    _ = (turn a)^[m] (found d i) := by rw [Nat.add_comm, Function.iterate_add_apply, hfound]
    _ = found d i := Function.iterate_fixed rfl m

theorem turn_passed (hb : before < d.arena.size) (hi : i < d.arena.size)
    (hn : d.arena.next? before = some i) (ho : (d.arena.range i).owns a = false) :
    turn a (passed d before) = passed (d.probed 1) i := by
  simp [turn, Arena.getElem?_nodes hb, Arena.getElem?_nodes hi, Arena.next_node, Arena.range_node, hn, ho]

theorem turn_found (hb : before < d.arena.size) (hi : i < d.arena.size)
    (hn : d.arena.next? before = some i) (ho : (d.arena.range i).owns a = true) :
    turn a (passed d before) =
      found (if d.arena.next? i = none then d.probed 1 else (d.probed 1).promoted before i) i := by
  cases hnext : d.arena.next? i <;>
    simp [turn, Arena.getElem?_nodes hb, Arena.getElem?_nodes hi, Arena.next_node, Arena.range_node, hn, ho, hnext]

/-- As many turns as there are entries on the way pass them all. -/
theorem iterate_turn_passed (h : d.arena.Path (some i) (xs ++ before :: ys) none)
    (hno : ∀ j ∈ xs ++ [before], (d.arena.range j).owns a = false) :
    (turn a)^[xs.length] (passed d i) = passed (d.probed xs.length) before := by
  induction xs generalizing i d with
  | nil =>
    obtain rfl : i = before := by simpa using h.1
    rfl
  | cons x xs ih =>
    obtain ⟨hix, hx, hrest⟩ := h
    obtain rfl : i = x := by simpa using hix
    -- The rest of the path starts with `before` or with an entry ahead of it, which does not own the address either.
    obtain ⟨j, hj, hnext, hlt⟩ := Arena.exists_start_of_path hrest
    have hpass : turn a (passed d i) = passed (d.probed 1) j :=
      turn_passed hx hlt hnext (hno j (List.mem_cons_of_mem i hj))
    have hturns : (turn a)^[xs.length] (passed (d.probed 1) j) = passed ((d.probed 1).probed xs.length) before :=
      ih (hnext ▸ hrest) fun k hk => hno k (List.mem_cons_of_mem i hk)
    rw [List.length_cons, Function.iterate_succ_apply, hpass, hturns, TableData.probed_probed, Nat.add_comm]

/-- An entry behind others of the list is found by one turn for each of them. It moves to the front, unless it
ends the list. -/
theorem iterate_turn_search_of_path (h : d.arena.Path (some d.arena.head) (xs ++ before :: i :: ys) none)
    (hno : ∀ j ∈ xs ++ [before], (d.arena.range j).owns a = false) (hi : (d.arena.range i).owns a = true) :
    (turn a)^[xs.length + 1] (d.search a) = found
      (if ys = [] then d.looked.probed (xs.length + 1) else (d.looked.probed (xs.length + 1)).promoted before i)
      i := by
  obtain ⟨j, hj, hhead, hlt⟩ := Arena.exists_start_of_path h
  obtain rfl : d.arena.head = j := Option.some.inj hhead
  have hsearch : d.search a = passed d.looked d.arena.head := by
    rw [TableData.search_eq hlt, hno _ hj]
    simp
  have hpassed : (turn a)^[xs.length] (passed d.looked d.arena.head) =
      passed (d.looked.probed xs.length) before := iterate_turn_passed h hno
  obtain ⟨-, -, -, hb, hnext, hlti, hrest⟩ := Arena.path_append.mp h
  have hend : d.arena.next? i = none ↔ ys = [] := by
    cases ys with
    | nil => exact iff_of_true hrest rfl
    | cons y ys => simp [hrest.1]
  have hlast := turn_found (d := d.looked.probed xs.length) hb hlti hnext hi
  rw [Function.iterate_succ_apply', hsearch, hpassed, hlast]
  simp only [TableData.arena_probed, TableData.arena_looked, hend, TableData.probed_probed]

end Search

namespace Table

variable {t : Table} {a : UInt32}

theorem path_order (t : Table) : t.arena.Path (some t.head) t.order none :=
  t.order_eq ▸ t.valid.threaded_recency.path

theorem next?_eq_none_iff {i : Nat} (hi : i < t.size) : t.arena.next? i = none ↔ i = t.guardIndex := by
  have hmem : i ∈ t.order := t.order_perm.mem_iff.mpr (List.mem_range.mpr hi)
  have hpath := t.path_order
  have hnodup := t.nodup_order
  rw [order_eq] at hmem hpath hnodup
  exact Arena.next?_eq_none_iff_of_path hpath hnodup hmem

theorem data_find (t : Table) (a : UInt32) : (t.find a).2.data =
    ⟨(t.arena.find a).2, ⟨t.stats.lookups + 1, t.stats.probes + (t.find a).1.depth,
      t.stats.promotions + if (t.find a).1.promoted then 1 else 0⟩⟩ := rfl

/-- The loop of a lookup ends after as many turns as entries are passed, with what `find` returns. -/
theorem iterate_turn_search (t : Table) (a : UInt32) :
    (Search.turn a)^[(t.find a).1.depth] (t.data.search a) = .found (t.find a).2.data (t.find a).1.index := by
  obtain ⟨ys, i, zs, horder, hys, hi, hfound, -⟩ := t.exists_find_split a
  have hpath : t.arena.Path (some t.head) (ys ++ i :: zs) none := horder ▸ t.path_order
  have hnodup : (ys ++ i :: zs).Nodup := horder ▸ t.nodup_order
  have hlength : ys.length ≤ t.size := by
    have hle := depth_find_le (t := t) (a := a)
    rw [hfound] at hle
    exact (Nat.le_succ_of_le hle).trans_eq t.size_eq.symm
  obtain ⟨-, hafter⟩ := Arena.find_of_path hpath hys hi hnodup hlength
  rw [data_find, hfound]
  rcases List.eq_nil_or_concat' ys with rfl | ⟨us, before, rfl⟩
  · obtain ⟨hhead, hlt, -⟩ := hpath
    obtain rfl : t.head = i := Option.some.inj hhead
    have hsame : (t.arena.find a).2 = t.arena := by simpa using hafter
    have hsearch : t.data.search a = .found t.data.looked t.head :=
      (TableData.search_eq hlt).trans (if_pos hi)
    rw [hsame]
    exact hsearch
  · rw [List.append_assoc] at hpath
    have hturns := Search.iterate_turn_search_of_path (d := t.data) hpath hys hi
    rw [List.length_append, List.length_singleton]
    refine hturns.trans ?_
    by_cases hzs : zs = []
    · have hsame : (t.arena.find a).2 = t.arena := by simpa [hzs] using hafter
      rw [if_pos hzs, hsame]
      simp [hzs, data, TableData.looked, TableData.probed]
    · have hmoved : (t.arena.find a).2 = t.arena.promote before i := by simpa [hzs] using hafter
      rw [if_neg hzs, hmoved]
      simp [hzs, data, TableData.looked, TableData.probed, TableData.promoted]

/-- No lookup in a table needs an index outside the arena, and none reaches the end of the list in vain. -/
theorem iterate_turn_search_ne (t : Table) (a : UInt32) (n : Nat) :
    (∀ i, (Search.turn a)^[n] (t.data.search a) ≠ .outside i) ∧
      ∀ d i, (Search.turn a)^[n] (t.data.search a) ≠ .missed d i := by
  constructor
  · intro i hi
    exact absurd (Search.eq_of_iterate_turn hi rfl (t.iterate_turn_search a)) (by simp)
  · intro d i hi
    exact absurd (Search.eq_of_iterate_turn hi rfl (t.iterate_turn_search a)) (by simp)

/-- A lookup can only return as `find` does. -/
theorem eq_of_returned? {n i : Nat} {d : TableData}
    (h : ((Search.turn a)^[n] (t.data.search a)).returned? = some (i, d)) :
    i = (t.find a).1.index ∧ d = (t.find a).2.data := by
  cases hs : (Search.turn a)^[n] (t.data.search a) with
  | passed d' before => simp [hs, Search.returned?] at h
  | outside j => simp [hs, Search.returned?] at h
  | missed d' last => exact absurd hs ((t.iterate_turn_search_ne a n).2 d' last)
  | found d' j =>
    obtain ⟨rfl, rfl⟩ : j = i ∧ d' = d := by simpa [hs, Search.returned?] using h
    obtain ⟨hd, hi⟩ := Search.found.inj (Search.eq_of_iterate_turn hs rfl (t.iterate_turn_search a))
    exact ⟨hi, hd⟩

end Table

namespace TableData

open Relation (ReflTransGen)

variable {held held' : List TableData} {d : TableData}

/-- What a program can do with the tables that it holds. A builder takes nodes with whatever links they have, and
a lookup is done when it has returned, after however many turns. -/
inductive Step (held : List TableData) : List TableData → Prop
  | guardOnly : Step held (held ++ [Table.guardOnly.data])
  | build {nodes : List Node} {rs : List Range} {guard : Range} {t : Table}
      (hnodes : nodes.map (·.range) = rs ++ [guard]) (hbuild : Table.build rs guard = .ok t) :
      Step held (held ++ [⟨.relink nodes, .zero⟩])
  | find {k n i : Nat} {d d' : TableData} {a : UInt32} (hk : held[k]? = some d)
      (hfind : ((Search.turn a)^[n] (d.search a)).returned? = some (i, d')) : Step held (held.set k d')
  | clone {k : Nat} {d : TableData} (hk : held[k]? = some d) : Step held (held ++ [d])
  | resetStats {k : Nat} {d : TableData} (hk : held[k]? = some d) : Step held (held.set k d.resetStats)

/-- Each of these is what some table is made of. -/
def OfTables (held : List TableData) : Prop := ∀ d ∈ held, ∃ t : Table, t.data = d

theorem OfTables.append (h : OfTables held) (t : Table) : OfTables (held ++ [t.data]) := by
  intro d hd
  rcases List.mem_append.mp hd with hd | hd
  · exact h d hd
  · exact ⟨t, (List.mem_singleton.mp hd).symm⟩

theorem OfTables.set (h : OfTables held) (k : Nat) (t : Table) : OfTables (held.set k t.data) := by
  intro d hd
  rcases List.mem_or_eq_of_mem_set hd with hd | rfl
  · exact h d hd
  · exact ⟨t, rfl⟩

theorem OfTables.step (h : OfTables held) (hstep : Step held held') : OfTables held' := by
  cases hstep with
  | guardOnly => exact h.append .guardOnly
  | @build nodes rs guard t hnodes hbuild =>
    obtain ⟨harena, hstats⟩ := Table.arena_of_build hbuild
    rw [Arena.relink_eq hnodes, ← harena, ← hstats]
    exact h.append t
  | @find k n i d d' a hk hfind =>
    obtain ⟨t, rfl⟩ := h d (List.mem_of_getElem? hk)
    obtain ⟨-, rfl⟩ := Table.eq_of_returned? hfind
    exact h.set k (t.find a).2
  | @clone k d hk =>
    obtain ⟨t, rfl⟩ := h d (List.mem_of_getElem? hk)
    exact h.append t
  | @resetStats k d hk =>
    obtain ⟨t, rfl⟩ := h d (List.mem_of_getElem? hk)
    exact h.set k t.resetStats

theorem OfTables.steps (h : OfTables held) (hsteps : ReflTransGen Step held held') : OfTables held' := by
  induction hsteps with
  | refl => exact h
  | tail _ hstep ih => exact ih.step hstep

/-- In every table that a program can get hold of, the links lead from the head through all entries, once each, to
the last of the arena, which alone has no link and owns every address. So an iterator yields as many entries as
there are, and the loop of a lookup makes fewer turns than that before it returns an entry that owns the address:
no index that it needs is outside the arena, and it never reaches the end of the list in vain. -/
theorem path_and_searches_end (hsteps : ReflTransGen Step [] held) (hd : d ∈ held) :
    ∃ t : Table, t.data = d ∧
      d.arena.Path (some d.arena.head) t.order none ∧ t.order.Perm (List.range d.arena.size) ∧
      t.order.getLast? = some (d.arena.size - 1) ∧
      (∀ i < d.arena.size, d.arena.next? i = none ↔ i = d.arena.size - 1) ∧
      (∀ a, (d.arena.range (d.arena.size - 1)).owns a = true) ∧
      (∀ n, d.arena.calls? n (some d.arena.head) =
        some ((List.range n).map fun k => t.order[k]?.map fun i => (i, d.arena.node i))) ∧
      ∀ a, (t.find a).1.depth ≤ d.arena.size - 1 ∧
        (Search.turn a)^[(t.find a).1.depth] (d.search a) = .found (t.find a).2.data (t.find a).1.index ∧
        (d.arena.range (t.find a).1.index).owns a = true ∧
        ∀ n, (∀ i, (Search.turn a)^[n] (d.search a) ≠ .outside i) ∧
          ∀ d' i, (Search.turn a)^[n] (d.search a) ≠ .missed d' i := by
  have hnone : OfTables [] := by simp [OfTables]
  obtain ⟨t, rfl⟩ := hnone.steps hsteps d hd
  have hlast : t.order.getLast? = some t.guardIndex := by rw [Table.order_eq, List.getLast?_concat]
  refine ⟨t, rfl, t.path_order, t.order_perm, hlast, ?_, t.valid.guard_owns, ?_, ?_⟩
  · intro i hi
    exact Table.next?_eq_none_iff hi
  · exact Arena.calls?_of_path t.path_order
  · intro a
    exact ⟨Table.depth_find_le, t.iterate_turn_search a, Table.owns_of_find, t.iterate_turn_search_ne a⟩

/-- A copy in which a lookup has moved the second of two windows to the front, made from nodes with other links. -/
theorem path_and_searches_end_copy : ∃ d d' : TableData, ReflTransGen Step [] [d, d'] ∧ d' ∈ [d, d'] ∧
    d.arena.head = 0 ∧ d.arena.nodes.toList.map (·.next) = [some 1, some 2, none] ∧
    d'.arena.head = 1 ∧ d'.arena.nodes.toList.map (·.next) = [some 2, some 0, none] ∧
    (∀ n, d'.arena.calls? n (some 1) =
      some ((List.range n).map fun k => [1, 0, 2][k]?.map fun i => (i, d'.arena.node i))) ∧
    ∀ a, ∃ n ≤ 2, ∃ i e, (Search.turn a)^[n] (d'.search a) = .found e i ∧ (d'.arena.range i).owns a = true := by
  let first : Range := .ofAccess 0xFF00 0x0100 .device
  let second : Range := .ofAccess 0xFF00 0x0200 .device
  let nodes : List Node := [⟨first, none⟩, ⟨second, some 0⟩, ⟨.guard, some 7⟩]
  let d : TableData := ⟨⟨#[⟨first, some 1⟩, ⟨second, some 2⟩, ⟨.guard, none⟩], 0⟩, .zero⟩
  let d' : TableData := ⟨⟨#[⟨first, some 2⟩, ⟨second, some 0⟩, ⟨.guard, none⟩], 1⟩, ⟨1, 1, 1⟩⟩
  obtain ⟨t, hbuild⟩ : ∃ t, Table.build [first, second] .guard = .ok t := Table.exists_build (by decide)
  have hnodes : nodes.map (·.range) = [first, second] ++ [.guard] := rfl
  have hreturned : ((Search.turn 0x0205)^[1] (d.search 0x0205)).returned? = some (1, d') := by decide
  have hbuilt : Step [] [d] := .build hnodes hbuild
  have hcloned : Step [d] [d, d] := .clone (k := 0) rfl
  have hfound : Step [d, d] [d, d'] := .find (k := 1) rfl hreturned
  have hreset : Step [d, d'] [d, d'.resetStats] := .resetStats (k := 1) rfl
  have hsteps : ReflTransGen Step [] [d, d'.resetStats] :=
    (((ReflTransGen.single hbuilt).tail hcloned).tail hfound).tail hreset
  have hmem : d'.resetStats ∈ [d, d'.resetStats] := by simp
  obtain ⟨t, ht, -, -, -, -, -, hcalls, hends⟩ := path_and_searches_end hsteps hmem
  have horder : t.order = [1, 0, 2] := by
    have harena : t.arena = d'.arena := congrArg TableData.arena ht
    rw [Table.order, harena]
    decide
  refine ⟨d, d'.resetStats, hsteps, hmem, rfl, rfl, rfl, rfl, horder ▸ hcalls, fun a => ?_⟩
  obtain ⟨hle, hend, howns, -⟩ := hends a
  exact ⟨_, hle, _, _, hend, howns⟩

-- Had the splice written its two links the other way round, the first of these windows would lead to itself.
example : let d : TableData := ⟨⟨#[⟨.ofAccess 0xFF00 0x0100 .device, some 0⟩,
      ⟨.ofAccess 0xFF00 0x0200 .device, some 0⟩, ⟨.guard, none⟩], 1⟩, .zero⟩
    (Search.turn 0x0300)^[9] (d.search 0x0300) = .passed (d.looked.probed 9) 0 := by
  decide

end TableData
end MemoryBus
