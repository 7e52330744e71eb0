import Multidigraph.Proofs.BackEdges
import Multidigraph.Proofs.Listing
import Multidigraph.Proofs.Permanence

namespace Multidigraph.Graph

variable {g g' : Graph} {j k : EdgeHandle}

theorem WellFormed.rows_perm_edges (hg : g.WellFormed) : g.rows.Perm g.edges := by
  refine (List.perm_ext_iff_of_nodup ?_ ?_).mpr fun p => mem_rows_iff.trans hg.mem_edges_iff.symm
  · refine g.rows_increasing.imp fun {p q} hlt heq => ?_
    rw [heq] at hlt
    exact Nat.lt_irrefl _ hlt
  · exact List.Nodup.of_map Prod.fst (nodup_map_fst_listing hg.edgeIds)

theorem WellFormed.length_rows (hg : g.WellFormed) : g.rows.length = g.edgeCount :=
  hg.rows_perm_edges.length_eq.trans (length_listing hg.edgeIds)

section Lists

variable {near : Edge → NodeHandle}

theorem WellFormed.outEdges_eq (hg : g.WellFormed) (u : NodeHandle) :
    g.outEdges u = (g.rows.filter fun p => p.2.source = u).map Prod.fst :=
  eq_rows_of_near (hg.lists_outEdges u)

theorem WellFormed.inEdges_eq (hg : g.WellFormed) (v : NodeHandle) :
    g.inEdges v = (g.rows.filter fun p => p.2.destination = v).map Prod.fst :=
  eq_rows_of_near (hg.lists_inEdges v)

theorem WellFormed.edgesBetween_eq (hg : g.WellFormed) (u v : NodeHandle) :
    g.edgesBetween u v =
      (g.rows.filter fun p => p.2.source = u ∧ p.2.destination = v).map Prod.fst := by
  refine eq_rows_of_lists (q := fun e => e.source = u ∧ e.destination = v)
    ⟨(hg.lists_outEdges u).increasing.filter _, fun k => ?_⟩
  rw [edgesBetween, List.mem_filter, hg.mem_outEdges_iff, source?]
  cases g.edge? k <;> simp

theorem WellFormed.successors_eq_rows (hg : g.WellFormed) (u : NodeHandle) :
    g.successors u = (g.rows.filter fun p => p.2.source = u).map fun p => p.2.destination := by
  rw [hg.successors_eq, ← map_snd_rows, List.filter_map, List.map_map]
  rfl

theorem WellFormed.predecessors_eq_rows (hg : g.WellFormed) (v : NodeHandle) :
    g.predecessors v = (g.rows.filter fun p => p.2.destination = v).map fun p => p.2.source := by
  rw [hg.predecessors_eq, ← map_snd_rows, List.filter_map, List.map_map]
  rfl

theorem count_map_filter_rows (near far : Edge → NodeHandle) (a b : NodeHandle) :
    ((g.rows.filter fun p => near p.2 = a).map fun p => far p.2).count b =
      (g.rows.filter fun p => near p.2 = a ∧ far p.2 = b).length := by
  rw [List.count_eq_countP, List.countP_map, List.countP_filter, List.countP_eq_length_filter]
  congr 2
  funext p
  simp [Bool.and_comm, beq_eq_decide]

theorem WellFormed.count_successors (hg : g.WellFormed) (u v : NodeHandle) :
    (g.successors u).count v = (g.edgesBetween u v).length := by
  rw [hg.successors_eq_rows, hg.edgesBetween_eq, List.length_map, count_map_filter_rows]

theorem WellFormed.count_predecessors (hg : g.WellFormed) (u v : NodeHandle) :
    (g.predecessors v).count u = (g.edgesBetween u v).length := by
  rw [hg.predecessors_eq_rows, hg.edgesBetween_eq, List.length_map, count_map_filter_rows]
  simp only [and_comm]

theorem WellFormed.sum_degrees (hg : g.WellFormed) {list : NodeHandle → List EdgeHandle}
    (hlist : ∀ h, list h = (g.rows.filter fun p => near p.2 = h).map Prod.fst)
    (hnear : ∀ k e, g.edge? k = some e → g.hasNode (near e) = true) :
    (g.nodes.map fun p => (list p.1).length).sum = g.edgeCount := by
  let order := g.nodes.map Prod.fst
  have horder : order.Nodup := nodup_map_fst_listing hg.nodeIds
  have hparts : (order.flatMap fun h => g.rows.filter fun p => near p.2 = h).length =
      (g.rows.filter fun p => near p.2 ∈ order).length := by
    simpa using (flatMap_filter_perm horder (fun p : EdgeHandle × Edge => near p.2)
      (fun _ => true) g.rows).length_eq
  have hall : (g.rows.filter fun p => near p.2 ∈ order) = g.rows := by
    refine List.filter_eq_self.mpr fun p hp => ?_
    obtain ⟨n, hn⟩ := hasNode_iff.mp (hnear p.1 p.2 (mem_rows_iff.mp hp))
    simpa [order] using ⟨n, hg.mem_nodes_iff.mpr hn⟩
  calc (g.nodes.map fun p => (list p.1).length).sum
    _ = (order.flatMap fun h => g.rows.filter fun p => near p.2 = h).length := by
      simp [order, List.length_flatMap, hlist, Function.comp_def]
    _ = g.rows.length := by rw [hparts, hall]
    _ = g.edgeCount := hg.length_rows

end Lists

section Creation

/-- Whether the history came by a graph that had the one edge and not yet the other. -/
def MadeBefore (id : GraphId) (history : List Operation) (j k : EdgeHandle) : Prop :=
  ∃ earlier later, history = earlier ++ later ∧
    (ofHistory id earlier).hasEdge j = true ∧ (ofHistory id earlier).hasEdge k = false

theorem used_of_hasEdge (hk : g.hasEdge k = true) : g.Used (.edge k) := by
  obtain ⟨e, he⟩ := Option.isSome_iff_exists.mp hk
  exact slot_lt_of_edge? he

theorem Ages.hasEdge (hages : g.Ages g') (hused : g.Used (.edge k)) (hk : g'.hasEdge k = true) :
    g.hasEdge k = true := by
  obtain ⟨e, he⟩ := Option.isSome_iff_exists.mp hk
  have hthen : g'.identity? (.edge k) = some (.edge e.id e.source e.destination e.relation) := by
    simp [Graph.identity?, he]
  obtain ⟨f, hf, -⟩ := Option.map_eq_some_iff.mp (hages.identity? hused hthen)
  exact Option.isSome_iff_exists.mpr ⟨f, hf⟩

theorem madeBefore_of_slot_lt (id : GraphId) (history : List Operation)
    (hj : (ofHistory id history).hasEdge j = true) (hk : (ofHistory id history).hasEdge k = true)
    (hlt : j.slot < k.slot) : MadeBefore id history j k := by
  induction history using List.reverseRecOn with
  | nil => simp [ofHistory, Operation.run, hasEdge] at hj
  | append_singleton ops op ih =>
    let before := ofHistory id ops
    have hwf : before.WellFormed := ofHistory_wellFormed id ops
    have hlast : ofHistory id (ops ++ [op]) = (op.apply before).2 := by
      rw [ofHistory, Operation.run_append]
      rfl
    rw [hlast] at hj hk
    have hages := op.apply_ages before
    by_cases hkused : before.Used (.edge k)
    · have hjused : before.Used (.edge j) := Nat.lt_trans hlt hkused
      obtain ⟨earlier, later, rfl, hboth⟩ := ih (hages.hasEdge hjused hj) (hages.hasEdge hkused hk)
      exact ⟨earlier, later ++ [op], by simp, hboth⟩
    · have hknone : before.hasEdge k = false := Bool.eq_false_iff.mpr (mt used_of_hasEdge hkused)
      refine ⟨ops, [op], rfl, hages.hasEdge ?_ hj, hknone⟩
      -- otherwise the operation would have filled both slots
      by_contra hjused
      have hissues := Operation.apply_issues hwf op
      have hanswer := (hissues.filled (.edge j) hjused (used_of_hasEdge hj)).symm.trans
        (hissues.filled (.edge k) hkused (used_of_hasEdge hk))
      cases hanswer
      exact Nat.lt_irrefl _ hlt

end Creation

/-- Navigation agrees with the edge table, whatever handles it is asked about. The table has the
live edges, as `edges` has them, but in the order in which they were made. The edges between two
nodes, the edges at a node and the nodes that it leads to, or that lead to it, are what a scan of
the table finds, so neighbours are counted alike from both ends; and degrees sum to the number of
edges. -/
theorem navigation_agrees (id : GraphId) (history : List Operation) (u v : NodeHandle) :
    let g := ofHistory id history
    ((∀ k e, (k, e) ∈ g.rows ↔ g.edge? k = some e) ∧ g.rows.Perm g.edges ∧
      g.rows.Pairwise fun p q => MadeBefore id history p.1 q.1) ∧
    g.edgesBetween u v =
      (g.rows.filter fun p => p.2.source = u ∧ p.2.destination = v).map Prod.fst ∧
    (g.outEdges u = (g.rows.filter fun p => p.2.source = u).map Prod.fst ∧
      g.successors u = (g.rows.filter fun p => p.2.source = u).map fun p => p.2.destination) ∧
    (g.inEdges v = (g.rows.filter fun p => p.2.destination = v).map Prod.fst ∧
      g.predecessors v = (g.rows.filter fun p => p.2.destination = v).map fun p => p.2.source) ∧
    ((g.successors u).count v = (g.predecessors v).count u ∧
      (g.successors u).count v = (g.edgesBetween u v).length) ∧
    (g.nodes.map fun p => (g.outEdges p.1).length).sum = g.edgeCount ∧
    (g.nodes.map fun p => (g.inEdges p.1).length).sum = g.edgeCount := by
  intro g
  have hg : g.WellFormed := ofHistory_wellFormed id history
  refine ⟨⟨fun _ _ => mem_rows_iff, hg.rows_perm_edges, ?_⟩, hg.edgesBetween_eq u v,
    ⟨hg.outEdges_eq u, hg.successors_eq_rows u⟩, ⟨hg.inEdges_eq v, hg.predecessors_eq_rows v⟩,
    ⟨?_, hg.count_successors u v⟩, ?_, ?_⟩
  · have hlive : ∀ p ∈ g.rows, g.hasEdge p.1 = true := fun p hp =>
      Option.isSome_iff_exists.mpr ⟨p.2, mem_rows_iff.mp hp⟩
    exact g.rows_increasing.imp_of_mem fun hp hq hlt =>
      madeBefore_of_slot_lt id history (hlive _ hp) (hlive _ hq) hlt
  · rw [hg.count_successors, hg.count_predecessors]
  · exact hg.sum_degrees hg.outEdges_eq fun k e he => (hg.edges k e he).source
  · exact hg.sum_degrees hg.inEdges_eq fun k e he => (hg.edges k e he).destination

/-- Parallel edges and a loop, which is in both lists of its node. -/
example :
    let g := ofHistory ⟨⟨0⟩⟩ [.putNode "a" "", .putNode "b" "", .putEdge .default "x" "" ⟨0⟩ ⟨1⟩,
      .putEdge .default "y" "" ⟨0⟩ ⟨0⟩, .putEdge .default "w" "" ⟨0⟩ ⟨1⟩, .eraseEdge ⟨0⟩,
      .putEdge .default "z" "" ⟨0⟩ ⟨1⟩]
    g.edgesBetween ⟨0⟩ ⟨1⟩ = [⟨2⟩, ⟨3⟩] ∧ g.successors ⟨0⟩ = [⟨0⟩, ⟨1⟩, ⟨1⟩] := by
  decide +kernel

end Multidigraph.Graph
