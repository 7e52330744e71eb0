import Multidigraph.Proofs.Search
import Multidigraph.Script

namespace Multidigraph

namespace Arena

variable {α : Type}

def withEmptySlots (a : Arena α) (n : Nat) : Arena α := ⟨a.slots ++ Array.replicate n none⟩

@[simp] theorem size_withEmptySlots (a : Arena α) (n : Nat) :
    (a.withEmptySlots n).size = a.size + n := by
  simp [withEmptySlots, size]

@[simp] theorem get?_withEmptySlots (a : Arena α) (n i : Nat) :
    (a.withEmptySlots n).get? i = a.get? i := by
  rw [get?, withEmptySlots, Array.getElem?_append]
  split
  · rfl
  · next hi =>
    rw [get?, Array.getElem?_eq_none (Nat.le_of_not_lt hi), Array.getElem?_replicate]
    split <;> rfl

@[simp] theorem toList_withEmptySlots (a : Arena α) (n : Nat) :
    (a.withEmptySlots n).toList = a.toList := by
  simp [withEmptySlots, toList]

end Arena

namespace Graph

variable (g : Graph) (m n : Nat)

def withEmptySlots : Graph :=
  { g with
    nodeSlots := g.nodeSlots.withEmptySlots m
    edgeSlots := g.edgeSlots.withEmptySlots n }

section Lookup

@[simp] theorem node?_withEmptySlots (h : NodeHandle) :
    (g.withEmptySlots m n).node? h = g.node? h :=
  g.nodeSlots.get?_withEmptySlots m h.slot

@[simp] theorem edge?_withEmptySlots (k : EdgeHandle) :
    (g.withEmptySlots m n).edge? k = g.edge? k :=
  g.edgeSlots.get?_withEmptySlots n k.slot

@[simp] theorem nodeHandle?_withEmptySlots (s : String) :
    (g.withEmptySlots m n).nodeHandle? s = g.nodeHandle? s := rfl

@[simp] theorem edgeHandle?_withEmptySlots (s : String) :
    (g.withEmptySlots m n).edgeHandle? s = g.edgeHandle? s := rfl

@[simp] theorem outEdges_withEmptySlots (h : NodeHandle) :
    (g.withEmptySlots m n).outEdges h = g.outEdges h := by
  simp only [outEdges, node?_withEmptySlots]

@[simp] theorem inEdges_withEmptySlots (h : NodeHandle) :
    (g.withEmptySlots m n).inEdges h = g.inEdges h := by
  simp only [inEdges, node?_withEmptySlots]

@[simp] theorem nodes_withEmptySlots : (g.withEmptySlots m n).nodes = g.nodes := by
  simp only [nodes, node?_withEmptySlots]
  rfl

@[simp] theorem edges_withEmptySlots : (g.withEmptySlots m n).edges = g.edges := by
  simp only [edges, edge?_withEmptySlots]
  rfl

end Lookup

variable {g} in
theorem WellFormed.withEmptySlots (hg : g.WellFormed) : (g.withEmptySlots m n).WellFormed :=
  hg.redraw (fun _ n => n) (fun _ e => e) (by simp) (by simp) (by simp) (by simp)
    (fun h n hn => ⟨.refl n, (hg.nodes h n hn).owner⟩)
    fun k e he => ⟨.refl e, (hg.edges k e he).owner⟩

section Queries

theorem passes_withEmptySlots (node : Node) (f : Filter) :
    f.passes (g.withEmptySlots m n) node = f.passes g node := by
  cases f with
  | hasOutRelation r => simp only [Filter.passes, edge?_withEmptySlots]
  | _ => rfl

theorem hits_withEmptySlots (q : Query) : q.hits (g.withEmptySlots m n) = q.hits g := by
  simp only [Query.hits, Query.accepts, nodes_withEmptySlots, passes_withEmptySlots]

theorem run_withEmptySlots (q : Query) : q.run (g.withEmptySlots m n) = q.run g := by
  simp only [Query.run, hits_withEmptySlots]

theorem any_withEmptySlots (q : Query) : q.any (g.withEmptySlots m n) = q.any g := by
  simp only [Query.any, Query.accepts, nodes_withEmptySlots, passes_withEmptySlots]

end Queries

section Documents

theorem dotStyled_withEmptySlots (style : Dot.Style) :
    (g.withEmptySlots m n).dotStyled style = g.dotStyled style := by
  simp only [dotStyled, Dot.lines, nodes_withEmptySlots, edges_withEmptySlots]

theorem nodeLinkOf_withEmptySlots (keep : Node → Bool) (withEdges : Bool) :
    (g.withEmptySlots m n).nodeLinkOf keep withEdges = g.nodeLinkOf keep withEdges := by
  simp only [nodeLinkOf, NodeLink.document, NodeLink.edgeJson, NodeLink.endpointJson,
    nodes_withEmptySlots, edges_withEmptySlots, node?_withEmptySlots]

end Documents

section Searches

theorem navigation_comap_withEmptySlots :
    navigation.comap (fun g => g.withEmptySlots m n) = navigation := by
  have hcontains : ∀ g : Graph, (g.withEmptySlots m n).hasNode = g.hasNode := fun g => by
    funext h
    simp only [hasNode, node?_withEmptySlots]
  simp only [navigation, Walk.Navigation.comap, Function.comp_def, hcontains,
    outEdges_withEmptySlots, inEdges_withEmptySlots, edge?_withEmptySlots]

theorem stepBound_withEmptySlots : (g.withEmptySlots m n).stepBound = g.stepBound := by
  simp only [stepBound, pushBound, withEmptySlots, Arena.toList_withEmptySlots]

theorem searches_withEmptySlots (h : NodeHandle) :
    (g.withEmptySlots m n).hasCycle h = g.hasCycle h ∧
      (g.withEmptySlots m n).firstCycle? h = g.firstCycle? h ∧
      (g.withEmptySlots m n).allCycles h = g.allCycles h ∧
      (∀ flags, (g.withEmptySlots m n).reachable h flags = g.reachable h flags) ∧
      (g.withEmptySlots m n).topologicalOrder h = g.topologicalOrder h :=
  searches_eq_of_comap (navigation_comap_withEmptySlots m n) (g.stepBound_withEmptySlots m n) h

end Searches

end Graph

/-- No question shows whether a graph has empty slots at the end. -/
theorem Question.reply_withEmptySlots (g : Graph) (m n : Nat) (q : Question) :
    q.reply (g.withEmptySlots m n) = q.reply g := by
  cases q with
  | node h | hasNode h | nodeJson h =>
    simp only [reply, Graph.hasNode, Graph.node?_withEmptySlots]
  | edge h | hasEdge h | edgeJson h =>
    simp only [reply, Graph.hasEdge, Graph.edge?_withEmptySlots]
  | nodeOfId id | edgeOfId id =>
    simp only [reply, Graph.nodeOfId?, Graph.edgeOfId?, Graph.nodeHandle?_withEmptySlots,
      Graph.edgeHandle?_withEmptySlots, funext (g.node?_withEmptySlots m n),
      funext (g.edge?_withEmptySlots m n)]
  | outEdges h | inEdges h =>
    simp only [reply, Graph.outEdges_withEmptySlots, Graph.inEdges_withEmptySlots]
  | successors h | predecessors h =>
    simp only [reply, Graph.successors, Graph.predecessors, Graph.outEdges_withEmptySlots,
      Graph.inEdges_withEmptySlots, Graph.edge?_withEmptySlots]
  | edgesBetween source destination =>
    simp only [reply, Graph.edgesBetween, Graph.outEdges_withEmptySlots,
      Graph.edge?_withEmptySlots]
  | nodes | edges => simp only [reply, Graph.nodes_withEmptySlots, Graph.edges_withEmptySlots]
  | query q => exact congrArg Reply.nodeHandles (g.run_withEmptySlots m n q)
  | queryCount q =>
    exact congrArg (Reply.number ·.length) (g.hits_withEmptySlots m n q)
  | queryAny q => exact congrArg Reply.flag (g.any_withEmptySlots m n q)
  | findNodes text => exact congrArg Reply.nodeHandles (g.run_withEmptySlots m n _)
  | dot style => exact congrArg Reply.text (g.dotStyled_withEmptySlots m n style)
  | nodeLink keep withEdges =>
    exact congrArg Reply.text (g.nodeLinkOf_withEmptySlots m n keep withEdges)
  | hasCycle h | firstCycle h | allCycles h | reachable h flags | topologicalOrder h =>
    obtain ⟨hhas, hfirst, hall, hreachable, horder⟩ := g.searches_withEmptySlots m n h
    simp only [reply, hhas, hfirst, hall, hreachable, horder]
  | nodeHandle id | edgeHandle id | nodeCount | edgeCount | isEmpty => rfl

end Multidigraph
