import Multidigraph.Graph.Operation

namespace Multidigraph

theorem NodeHandle.slot_inj {h k : NodeHandle} : h.slot = k.slot ↔ h = k := by
  cases h; cases k; simp

theorem EdgeHandle.slot_inj {h k : EdgeHandle} : h.slot = k.slot ↔ h = k := by
  cases h; cases k; simp

namespace Graph

variable {g : Graph}

def nodeId? (g : Graph) (h : NodeHandle) : Option String := (g.node? h).map Node.id

def edgeId? (g : Graph) (h : EdgeHandle) : Option String := (g.edge? h).map Edge.id

def source? (g : Graph) (e : EdgeHandle) : Option NodeHandle := (g.edge? e).map Edge.source

def destination? (g : Graph) (e : EdgeHandle) : Option NodeHandle :=
  (g.edge? e).map Edge.destination

theorem slot_lt_of_edge? {h : EdgeHandle} {e : Edge} (he : g.edge? h = some e) :
    h.slot < g.edgeSlots.size := by
  refine Nat.lt_of_not_le fun hle => ?_
  have hn : g.edge? h = none := g.edgeSlots.get?_eq_none_of_size_le hle
  simp [he] at hn

theorem slot_lt_of_node? {h : NodeHandle} {n : Node} (hn : g.node? h = some n) :
    h.slot < g.nodeSlots.size := by
  refine Nat.lt_of_not_le fun hle => ?_
  have ha : g.node? h = none := g.nodeSlots.get?_eq_none_of_size_le hle
  simp [hn] at ha

theorem hasNode_iff {h : NodeHandle} : g.hasNode h = true ↔ ∃ n, g.node? h = some n := by
  simp [hasNode, Option.isSome_iff_exists]

section Empty

variable (id : GraphId)

@[simp] theorem node?_empty (h : NodeHandle) : (empty id).node? h = none := by
  simp [empty, node?]

@[simp] theorem edge?_empty (h : EdgeHandle) : (empty id).edge? h = none := by
  simp [empty, edge?]

@[simp] theorem nodeHandle?_empty (s : String) : (empty id).nodeHandle? s = none := by
  simp [empty, nodeHandle?]

@[simp] theorem edgeHandle?_empty (s : String) : (empty id).edgeHandle? s = none := by
  simp [empty, edgeHandle?]

end Empty

section Modify

variable (g : Graph) (h : NodeHandle) (f : Node → Node) (k : EdgeHandle) (f' : Edge → Edge)

theorem node?_modifyNode (j : NodeHandle) :
    (g.modifyNode h f).node? j = if j = h then (g.node? j).map f else g.node? j := by
  simp only [modifyNode, node?, Arena.get?_modify, NodeHandle.slot_inj, eq_comm]

theorem node?_modifyNode_modifyNode (i : NodeHandle) (f' : Node → Node) (j : NodeHandle) :
    ((g.modifyNode h f).modifyNode i f').node? j =
      (g.node? j).map fun n =>
        let m := if j = h then f n else n
        if j = i then f' m else m := by
  simp only [node?_modifyNode]
  cases g.node? j <;> split <;> split <;> rfl

@[simp] theorem hasNode_modifyNode (j : NodeHandle) :
    (g.modifyNode h f).hasNode j = g.hasNode j := by
  simp only [hasNode, node?_modifyNode]
  split <;> simp

@[simp] theorem edge?_modifyNode (j : EdgeHandle) : (g.modifyNode h f).edge? j = g.edge? j := rfl

@[simp] theorem nodeHandle?_modifyNode (s : String) :
    (g.modifyNode h f).nodeHandle? s = g.nodeHandle? s := rfl

@[simp] theorem edgeHandle?_modifyNode (s : String) :
    (g.modifyNode h f).edgeHandle? s = g.edgeHandle? s := rfl

@[simp] theorem id_modifyNode : (g.modifyNode h f).id = g.id := rfl

theorem edge?_modifyEdge (j : EdgeHandle) :
    (g.modifyEdge k f').edge? j = if j = k then (g.edge? j).map f' else g.edge? j := by
  simp only [modifyEdge, edge?, Arena.get?_modify, EdgeHandle.slot_inj, eq_comm]

@[simp] theorem node?_modifyEdge (j : NodeHandle) : (g.modifyEdge k f').node? j = g.node? j := rfl

@[simp] theorem hasNode_modifyEdge (j : NodeHandle) :
    (g.modifyEdge k f').hasNode j = g.hasNode j := rfl

@[simp] theorem nodeHandle?_modifyEdge (s : String) :
    (g.modifyEdge k f').nodeHandle? s = g.nodeHandle? s := rfl

@[simp] theorem edgeHandle?_modifyEdge (s : String) :
    (g.modifyEdge k f').edgeHandle? s = g.edgeHandle? s := rfl

@[simp] theorem id_modifyEdge : (g.modifyEdge k f').id = g.id := rfl

end Modify

section Insert

def nextNode (g : Graph) : NodeHandle := ⟨g.nodeSlots.size⟩

def nextEdge (g : Graph) : EdgeHandle := ⟨g.edgeSlots.size⟩

theorem node?_nextNode (g : Graph) : g.node? g.nextNode = none :=
  g.nodeSlots.get?_eq_none_of_size_le (Nat.le_refl _)

theorem edge?_nextEdge (g : Graph) : g.edge? g.nextEdge = none :=
  g.edgeSlots.get?_eq_none_of_size_le (Nat.le_refl _)

variable (g : Graph) (id label : String)

theorem node?_insertNode (j : NodeHandle) :
    (g.insertNode id label).2.node? j =
      if j = g.nextNode then some (.isolated g.id id label) else g.node? j := by
  simp only [insertNode, node?, nextNode, Arena.get?_push, ← NodeHandle.slot_inj]

@[simp] theorem edge?_insertNode (j : EdgeHandle) :
    (g.insertNode id label).2.edge? j = g.edge? j := rfl

theorem nodeHandle?_insertNode (s : String) :
    (g.insertNode id label).2.nodeHandle? s =
      if s = id then some g.nextNode else g.nodeHandle? s := by
  simp only [insertNode, nodeHandle?, nextNode, Std.ExtTreeMap.getElem?_insert,
    Std.LawfulEqCmp.compare_eq_iff_eq, @eq_comm _ id s]

@[simp] theorem edgeHandle?_insertNode (s : String) :
    (g.insertNode id label).2.edgeHandle? s = g.edgeHandle? s := rfl

@[simp] theorem id_insertNode : (g.insertNode id label).2.id = g.id := rfl

theorem nodeId?_insertNode (j : NodeHandle) :
    (g.insertNode id label).2.nodeId? j = if j = g.nextNode then some id else g.nodeId? j := by
  simp only [nodeId?, node?_insertNode]
  split <;> rfl

theorem hasNode_insertNode {j : NodeHandle} (hj : g.hasNode j = true) :
    (g.insertNode id label).2.hasNode j = true := by
  simp only [hasNode, node?_insertNode]
  split
  · rfl
  · exact hj

variable (r : Relation) (s d : NodeHandle)

theorem edge?_insertEdge (j : EdgeHandle) :
    (g.insertEdge r id label s d).2.edge? j =
      if j = g.nextEdge then some ⟨id, label, .one, r, s, d, g.id⟩ else g.edge? j := by
  simp only [insertEdge, edge?_modifyNode]
  simp only [edge?, nextEdge, Arena.get?_push, ← EdgeHandle.slot_inj]

theorem node?_insertEdge (j : NodeHandle) :
    (g.insertEdge r id label s d).2.node? j = (g.node? j).map fun n =>
      { n with
        outEdges := if j = s then n.outEdges ++ [g.nextEdge] else n.outEdges
        inEdges := if j = d then n.inEdges ++ [g.nextEdge] else n.inEdges } := by
  rw [insertEdge, node?_modifyNode_modifyNode]
  congr 1
  funext n
  dsimp only
  split <;> split <;> rfl

@[simp] theorem nodeHandle?_insertEdge (t : String) :
    (g.insertEdge r id label s d).2.nodeHandle? t = g.nodeHandle? t := rfl

theorem edgeHandle?_insertEdge (t : String) :
    (g.insertEdge r id label s d).2.edgeHandle? t =
      if t = id then some g.nextEdge else g.edgeHandle? t := by
  simp only [insertEdge, edgeHandle?_modifyNode]
  simp only [edgeHandle?, nextEdge, Std.ExtTreeMap.getElem?_insert,
    Std.LawfulEqCmp.compare_eq_iff_eq, @eq_comm _ id t]

@[simp] theorem nodeId?_insertEdge (j : NodeHandle) :
    (g.insertEdge r id label s d).2.nodeId? j = g.nodeId? j := by
  simp [nodeId?, node?_insertEdge, Function.comp_def]

@[simp] theorem hasNode_insertEdge (j : NodeHandle) :
    (g.insertEdge r id label s d).2.hasNode j = g.hasNode j := by
  simp [hasNode, node?_insertEdge]

theorem edgeId?_insertEdge (j : EdgeHandle) :
    (g.insertEdge r id label s d).2.edgeId? j =
      if j = g.nextEdge then some id else g.edgeId? j := by
  simp only [edgeId?, edge?_insertEdge]
  split <;> rfl

theorem source?_insertEdge (j : EdgeHandle) :
    (g.insertEdge r id label s d).2.source? j = if j = g.nextEdge then some s else g.source? j := by
  simp only [source?, edge?_insertEdge]
  split <;> rfl

theorem destination?_insertEdge (j : EdgeHandle) :
    (g.insertEdge r id label s d).2.destination? j =
      if j = g.nextEdge then some d else g.destination? j := by
  simp only [destination?, edge?_insertEdge]
  split <;> rfl

@[simp] theorem id_insertEdge : (g.insertEdge r id label s d).2.id = g.id := rfl

end Insert

section Erase

/-- A graph without one of its edges, which is `e`. -/
def withoutEdge (g : Graph) (h : EdgeHandle) (e : Edge) : Graph :=
  let g := { g with edgeSlots := g.edgeSlots.free h.slot, edgeIds := g.edgeIds.erase e.id }
  (g.modifyNode e.source (·.unlinkOut h)).modifyNode e.destination (·.unlinkIn h)

theorem eraseEdge_of_none {h : EdgeHandle} (hn : g.edge? h = none) :
    g.eraseEdge h = (.error (.edgeNotFound h.text), g) := by
  simp [eraseEdge, hn]

theorem eraseEdge_of_some {h : EdgeHandle} {e : Edge} (he : g.edge? h = some e) :
    g.eraseEdge h = (.ok e, g.withoutEdge h e) := by
  simp [eraseEdge, he, withoutEdge]

variable (g : Graph) (h : EdgeHandle) (e : Edge)

theorem edge?_withoutEdge (j : EdgeHandle) :
    (g.withoutEdge h e).edge? j = if j = h then none else g.edge? j := by
  simp only [withoutEdge, edge?_modifyNode]
  simp only [edge?, Arena.get?_free, EdgeHandle.slot_inj, eq_comm]

theorem node?_withoutEdge (j : NodeHandle) :
    (g.withoutEdge h e).node? j = (g.node? j).map fun n =>
      { n with
        outEdges := if j = e.source then n.outEdges.filter (· != h) else n.outEdges
        inEdges := if j = e.destination then n.inEdges.filter (· != h) else n.inEdges } := by
  rw [withoutEdge, node?_modifyNode_modifyNode]
  congr 1
  funext n
  dsimp only
  split <;> split <;> rfl

@[simp] theorem nodeHandle?_withoutEdge (s : String) :
    (g.withoutEdge h e).nodeHandle? s = g.nodeHandle? s := rfl

theorem edgeHandle?_withoutEdge (s : String) :
    (g.withoutEdge h e).edgeHandle? s = if s = e.id then none else g.edgeHandle? s := by
  simp only [withoutEdge, edgeHandle?_modifyNode]
  simp only [edgeHandle?, Std.ExtTreeMap.getElem?_erase, Std.LawfulEqCmp.compare_eq_iff_eq,
    @eq_comm _ e.id s]

@[simp] theorem nodeId?_withoutEdge (j : NodeHandle) :
    (g.withoutEdge h e).nodeId? j = g.nodeId? j := by
  simp [nodeId?, node?_withoutEdge, Function.comp_def]

@[simp] theorem hasNode_withoutEdge (j : NodeHandle) :
    (g.withoutEdge h e).hasNode j = g.hasNode j := by
  simp [hasNode, node?_withoutEdge]

theorem edgeId?_withoutEdge (j : EdgeHandle) :
    (g.withoutEdge h e).edgeId? j = if j = h then none else g.edgeId? j := by
  simp only [edgeId?, edge?_withoutEdge]
  split <;> rfl

theorem source?_withoutEdge (j : EdgeHandle) :
    (g.withoutEdge h e).source? j = if j = h then none else g.source? j := by
  simp only [source?, edge?_withoutEdge]
  split <;> rfl

theorem destination?_withoutEdge (j : EdgeHandle) :
    (g.withoutEdge h e).destination? j = if j = h then none else g.destination? j := by
  simp only [destination?, edge?_withoutEdge]
  split <;> rfl

@[simp] theorem id_withoutEdge : (g.withoutEdge h e).id = g.id := rfl

def withoutNode (g : Graph) (h : NodeHandle) (n : Node) : Graph :=
  { g with nodeSlots := g.nodeSlots.free h.slot, nodeIds := g.nodeIds.erase n.id }

variable (k : NodeHandle) (n : Node)

theorem node?_withoutNode (j : NodeHandle) :
    (g.withoutNode k n).node? j = if j = k then none else g.node? j := by
  simp only [withoutNode, node?, Arena.get?_free, NodeHandle.slot_inj, eq_comm]

@[simp] theorem edge?_withoutNode (j : EdgeHandle) :
    (g.withoutNode k n).edge? j = g.edge? j := rfl

theorem nodeHandle?_withoutNode (s : String) :
    (g.withoutNode k n).nodeHandle? s = if s = n.id then none else g.nodeHandle? s := by
  simp only [withoutNode, nodeHandle?, Std.ExtTreeMap.getElem?_erase,
    Std.LawfulEqCmp.compare_eq_iff_eq, @eq_comm _ n.id s]

@[simp] theorem edgeHandle?_withoutNode (s : String) :
    (g.withoutNode k n).edgeHandle? s = g.edgeHandle? s := rfl

theorem nodeId?_withoutNode (j : NodeHandle) :
    (g.withoutNode k n).nodeId? j = if j = k then none else g.nodeId? j := by
  simp only [nodeId?, node?_withoutNode]
  split <;> rfl

@[simp] theorem id_withoutNode : (g.withoutNode k n).id = g.id := rfl

end Erase

section Whole

variable (g : Graph) (id : GraphId)

@[simp] theorem node?_clear (j : NodeHandle) : g.clear.node? j = none := by
  simp [clear, node?]

@[simp] theorem edge?_clear (j : EdgeHandle) : g.clear.edge? j = none := by
  simp [clear, edge?]

@[simp] theorem nodeHandle?_clear (s : String) : g.clear.nodeHandle? s = none := by
  simp [clear, nodeHandle?]

@[simp] theorem edgeHandle?_clear (s : String) : g.clear.edgeHandle? s = none := by
  simp [clear, edgeHandle?]

theorem node?_clone (j : NodeHandle) :
    (g.clone id).node? j = (g.node? j).map ({ · with graph := id }) := by
  simp only [clone, node?, Arena.get?_map]

theorem edge?_clone (j : EdgeHandle) :
    (g.clone id).edge? j = (g.edge? j).map ({ · with graph := id }) := by
  simp only [clone, edge?, Arena.get?_map]

@[simp] theorem nodeHandle?_clone (s : String) : (g.clone id).nodeHandle? s = g.nodeHandle? s := rfl

@[simp] theorem edgeHandle?_clone (s : String) : (g.clone id).edgeHandle? s = g.edgeHandle? s := rfl

@[simp] theorem id_clone : (g.clone id).id = id := rfl

end Whole

end Graph

end Multidigraph
