import Multidigraph.Proofs.Remainder

namespace Multidigraph.Graph

variable {g : Graph} {k : EdgeHandle} {e : Edge} {ks : List EdgeHandle}

def edgeHandles (g : Graph) : List EdgeHandle := (List.range g.edgeSlots.size).map EdgeHandle.mk

/-- The edges that are there, in slot order. -/
def rows (g : Graph) : List (EdgeHandle × Edge) :=
  g.edgeHandles.filterMap fun k => (g.edge? k).map (k, ·)

theorem mem_rows_iff : (k, e) ∈ g.rows ↔ g.edge? k = some e := by
  simp only [rows, List.mem_filterMap, Option.map_eq_some_iff, Prod.mk.injEq]
  constructor
  · rintro ⟨_, -, _, he, rfl, rfl⟩
    exact he
  · intro he
    have hk : k ∈ g.edgeHandles :=
      List.mem_map.mpr ⟨k.slot, List.mem_range.mpr (slot_lt_of_edge? he), rfl⟩
    exact ⟨k, hk, e, he, rfl, rfl⟩

theorem rows_increasing (g : Graph) : g.rows.Pairwise fun p q => p.1.slot < q.1.slot := by
  have hhandles : g.edgeHandles.Pairwise fun a b => a.slot < b.slot :=
    List.pairwise_map.mpr List.pairwise_lt_range
  refine List.Pairwise.filterMap _ (fun a b hab p hp q hq => ?_) hhandles
  obtain ⟨_, -, rfl⟩ := Option.map_eq_some_iff.mp hp
  obtain ⟨_, -, rfl⟩ := Option.map_eq_some_iff.mp hq
  exact hab

theorem map_snd_rows (g : Graph) : g.rows.map Prod.snd = g.edgeSlots.toList := by
  rw [rows, List.map_filterMap, edgeHandles, List.filterMap_map, Arena.toList_eq_filterMap]
  refine List.filterMap_congr fun i _ => ?_
  cases h : g.edgeSlots.get? i <;> simp [edge?, h]

theorem exists_edge?_of_mem (he : e ∈ g.edgeSlots.toList) : ∃ k, g.edge? k = some e := by
  rw [← map_snd_rows] at he
  obtain ⟨⟨k, _⟩, hrow, rfl⟩ := List.mem_map.mp he
  exact ⟨k, mem_rows_iff.mp hrow⟩

/-- An edge list is the part of the table that it is about. -/
theorem eq_rows_of_lists {q : Edge → Bool} (hks : Lists ks fun k => (g.edge? k).any q = true) :
    ks = (g.rows.filter fun p => q p.2).map Prod.fst := by
  refine hks.unique ⟨List.pairwise_map.mpr (g.rows_increasing.filter _), fun k => ?_⟩
  simp only [List.mem_map, List.mem_filter, Prod.exists, exists_and_right, exists_eq_right,
    mem_rows_iff, Option.any_eq_true]

theorem filterMap_edge?_rows (q : EdgeHandle × Edge → Bool) :
    ((g.rows.filter q).map Prod.fst).filterMap g.edge? = (g.rows.filter q).map Prod.snd := by
  rw [List.filterMap_map, ← List.filterMap_eq_map]
  refine List.filterMap_congr fun p hp => ?_
  exact mem_rows_iff.mp (List.mem_filter.mp hp).1

section Ends

variable {near : Edge → NodeHandle} {a : NodeHandle}

theorem eq_rows_of_near (hks : Lists ks fun k => (g.edge? k).map near = some a) :
    ks = (g.rows.filter fun p => near p.2 = a).map Prod.fst := by
  refine eq_rows_of_lists (q := fun e => near e = a) (hks.congr fun k => ?_)
  cases g.edge? k <;> simp

theorem filterMap_edge?_of_lists (hks : Lists ks fun k => (g.edge? k).map near = some a) :
    ks.filterMap g.edge? = g.edgeSlots.toList.filter fun e => near e = a := by
  rw [eq_rows_of_near hks, filterMap_edge?_rows, ← map_snd_rows, List.filter_map]
  rfl

end Ends

section WellFormed

theorem WellFormed.lists_outEdges (hg : g.WellFormed) (h : NodeHandle) :
    Lists (g.outEdges h) fun k => g.source? k = some h := by
  refine ⟨?_, fun k => hg.mem_outEdges_iff⟩
  cases hn : g.node? h with
  | none => simp [outEdges, hn]
  | some n => simpa [outEdges, hn] using (hg.nodes h n hn).outEdges.increasing

theorem WellFormed.lists_inEdges (hg : g.WellFormed) (h : NodeHandle) :
    Lists (g.inEdges h) fun k => g.destination? k = some h := by
  refine ⟨?_, fun k => hg.mem_inEdges_iff⟩
  cases hn : g.node? h with
  | none => simp [inEdges, hn]
  | some n => simpa [inEdges, hn] using (hg.nodes h n hn).inEdges.increasing

theorem WellFormed.successors_eq (hg : g.WellFormed) (h : NodeHandle) :
    g.successors h =
      (g.edgeSlots.toList.filter fun e => e.source = h).map Edge.destination := by
  rw [successors, ← List.map_filterMap, filterMap_edge?_of_lists (hg.lists_outEdges h)]

theorem WellFormed.predecessors_eq (hg : g.WellFormed) (h : NodeHandle) :
    g.predecessors h =
      (g.edgeSlots.toList.filter fun e => e.destination = h).map Edge.source := by
  rw [predecessors, ← List.map_filterMap, filterMap_edge?_of_lists (hg.lists_inEdges h)]

end WellFormed

end Multidigraph.Graph
