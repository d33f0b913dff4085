import MemoryBus.Proofs.Pairing
import MemoryBus.Scenario.TableRun

/-! A table that is built anew from its list, and a copy of it: no lookups tell them from the table. -/
namespace MemoryBus

namespace Arena

variable {g : Arena} {nodes : List Node} {rs : List Range} {guard : Range}

def node (g : Arena) (i : Nat) : Node := g.nodes[i]?.getD ⟨.guard, none⟩

/-- The nodes in this order, each linked to the one behind it whatever it was linked to before. -/
def relink (nodes : List Node) : Arena where
  nodes := (nodes.zipIdx.map fun (n, i) =>
    { n with next := if i + 1 < nodes.length then some (i + 1) else none }).toArray
  head := 0

theorem range_node (i : Nat) : (g.node i).range = g.range i := by
  unfold node range
  cases g.nodes[i]? <;> rfl

/-- Only the ranges of the nodes are left, which is what a builder starts from. -/
theorem relink_eq (h : nodes.map (·.range) = rs ++ [guard]) : relink nodes = ofRanges rs guard := by
  have hlength : nodes.length = rs.length + 1 := by
    rw [← List.length_map (·.range), h]
    simp
  have hlink (n : Node) (i : Nat) : (⟨n.range, if i + 1 < nodes.length then some (i + 1) else none⟩ : Node) =
      ⟨n.range, if i < rs.length then some (i + 1) else none⟩ := by
    simp only [hlength, Nat.add_lt_add_iff_right]
  unfold relink ofRanges
  rw [← h, List.zipIdx_map, List.map_map]
  congr 2
  apply List.map_congr_left
  rintro ⟨n, i⟩ -
  exact hlink n i

end Arena

namespace Table

variable {t u : Table} {rs : List Range} {guard : Range}

/-- The entries along the list, with the links that lookups have left them with. -/
def nodes (t : Table) : List Node := t.order.map t.arena.node

theorem ranges_nodes (t : Table) : t.nodes.map (·.range) = t.listed := by
  rw [nodes, listed, List.map_map]
  apply List.map_congr_left
  intro i _
  exact Arena.range_node i

theorem listed_eq (t : Table) : t.listed = t.recency.map t.entry ++ [t.entry t.guardIndex] := by
  rw [listed, order_eq, List.map_append, List.map_singleton]

/-- No lookups tell the two tables apart: the next one finds the same range at the same place of the list,
the lists show the same ranges in the same order, and the counters have grown by the same amounts. -/
structure Indistinct (t u : Table) : Prop where
  range : ∀ as a, ((t.after as).find a).1.range = ((u.after as).find a).1.range
  depth : ∀ as a, ((t.after as).find a).1.depth = ((u.after as).find a).1.depth
  listed : ∀ as, (t.after as).listed = (u.after as).listed
  growth : ∀ as, ∃ growth : TableStats,
    (t.after as).stats = t.stats.add growth ∧ (u.after as).stats = u.stats.add growth

theorem forall₂_iff_map_eq {l l' : List Nat} : List.Forall₂ (fun i j => t.entry i = u.entry j) l l' ↔
    l.map t.entry = l'.map u.entry := by
  rw [← List.forall₂_eq_eq_eq, List.forall₂_map_left_iff, List.forall₂_map_right_iff]

/-- Which numbers the entries have makes no difference, only the list does. -/
theorem indistinct_of_listed (h : t.listed = u.listed) : t.Indistinct u := by
  have hpaired : Paired (fun i j => t.entry i = u.entry j) t u := by
    constructor
    · intro i j hij a
      rw [hij]
    · exact forall₂_iff_map_eq.mpr h
  constructor
  · intro as a
    obtain ⟨hentry, -⟩ := (hpaired.after as).find a
    simpa [range_of_find] using hentry
  · intro as a
    obtain ⟨-, hdepth, -⟩ := (hpaired.after as).find a
    exact hdepth
  · intro as
    have horder := forall₂_iff_map_eq.mp (hpaired.after as).order
    have ht : (t.after as).entry = t.entry := entry_of_entries entries_after
    have hu : (u.after as).entry = u.entry := entry_of_entries entries_after
    rw [Table.listed, Table.listed, ht, hu]
    exact horder
  · exact hpaired.exists_growth

theorem listed_of_build (h : build rs guard = .ok t) : t.listed = rs ++ [guard] := by
  have horder : t.order = List.range (rs ++ [guard]).length := by
    rw [order_eq, recency_of_build h, guardIndex_of_build h, List.length_append, List.length_singleton,
      List.range_succ]
  rw [listed, horder]
  apply List.ext_getElem
  · simp
  · intro i hi hi'
    simp [entry_eq, entries_of_build h, List.getElem?_eq_getElem hi']

theorem exists_rebuild (t : Table) : ∃ u, t.rebuild = .ok u := by
  refine exists_build_of_guard t.valid.guard_mask t.valid.guard_value t.valid.guard_uncacheable ?_
  intro r hr hc
  obtain ⟨i, -, rfl⟩ := List.mem_map.mp hr
  exact Option.isSome_iff_ne_none.mp (t.valid.backed i hc)

end Table

namespace Scenario.TableSession

/-- The session after these steps. -/
def after (s : TableSession) (steps : List TableStep) : TableSession :=
  steps.foldl (fun s step => (step.run s).2) s

theorem after_append (s : TableSession) (steps steps' : List TableStep) :
    s.after (steps ++ steps') = (s.after steps).after steps' := List.foldl_append

theorem after_finds (t : Table) (kept : List Table) (as : List UInt32) :
    (TableSession.mk t kept).after (as.map .find) = ⟨t.after as, kept⟩ := by
  induction as generalizing t with
  | nil => rfl
  | cons a as ih => exact ih (t.find a).2

end Scenario.TableSession

namespace Table

open Scenario (TableSession)

/-- Whatever lookups have made of a table, its entries in the order of its list, with the last as the guard,
build a table that no lookups tell from it. The links of the new table go from each entry to the one that was
behind it in the list, and none of the old ones is left. A copy of a table stays as it is while lookups go on in
the table, and no lookups tell it from the table that was copied. -/
theorem rebuild_indistinct (t : Table) :
    (∃ rs guard u, t.listed = rs ++ [guard] ∧ build rs guard = .ok u ∧ t.rebuild = .ok u ∧
        u.arena = .relink t.nodes ∧ u.stats = .zero ∧ t.Indistinct u) ∧
      ∀ kept as, ∃ copy, (TableSession.mk t kept).after [.push] = ⟨t, copy :: kept⟩ ∧
        (TableSession.mk t kept).after (.push :: as.map .find) = ⟨t.after as, copy :: kept⟩ ∧
        (TableSession.mk t kept).after (.push :: as.map .find ++ [.pop]) = ⟨copy, kept⟩ ∧
        t.Indistinct copy := by
  constructor
  · obtain ⟨u, hu⟩ := t.exists_rebuild
    have hlisted := t.listed_eq
    obtain ⟨harena, hstats⟩ := arena_of_build hu
    refine ⟨_, _, u, hlisted, hu, hu, ?_, hstats, ?_⟩
    · rw [harena, Arena.relink_eq (t.ranges_nodes.trans hlisted)]
    · apply indistinct_of_listed
      rw [hlisted, listed_of_build hu]
  · intro kept as
    have hcopied : (TableSession.mk t kept).after (.push :: as.map .find) = ⟨t.after as, t :: kept⟩ :=
      TableSession.after_finds t (t :: kept) as
    refine ⟨t, rfl, hcopied, ?_, indistinct_of_listed rfl⟩
    rw [TableSession.after_append, hcopied]
    rfl

-- A lookup leaves links that point against the order of the numbers; those of the new table go with it.
example : ∃ t, build [⟨0xFF00, 0x0100, .device, none, 1⟩, ⟨0xFF00, 0x0200, .device, none, 2⟩] .guard = .ok t ∧
    (t.after [0x0201]).nodes.map (·.next) = [some 0, some 2, none] ∧
    (Arena.relink (t.after [0x0201]).nodes).nodes.toList.map (·.next) = [some 1, some 2, none] :=
  ⟨⟨.ofRanges _ _, .zero, _⟩, rfl, by decide, by decide⟩

end Table
end MemoryBus
