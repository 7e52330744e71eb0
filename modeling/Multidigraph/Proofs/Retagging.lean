import Multidigraph.Proofs.Search
import Multidigraph.Script

namespace Multidigraph

section Retag

def Node.retag (id : GraphId) (n : Node) : Node := { n with graph := id }

def Edge.retag (id : GraphId) (e : Edge) : Edge := { e with graph := id }

def Outcome.retag (id : GraphId) : Outcome → Outcome
  | .node n => .node (n.retag id)
  | .edge e => .edge (e.retag id)
  | o => o

def Reply.retag (id : GraphId) : Reply → Reply
  | .outcome o => .outcome (o.retag id)
  | .nodes ns => .nodes (ns.map fun (h, n) => (h, n.retag id))
  | .edges es => .edges (es.map fun (k, e) => (k, e.retag id))
  | r => r

end Retag

section Anonymous

def Filter.Anonymous : Filter → Prop
  | .satisfies p => ∀ id n, p (n.retag id) = p n
  | _ => True

def Query.Anonymous (q : Query) : Prop := ∀ f ∈ q.filters, f.Anonymous

/-- The records of nodes and edges show their tags. -/
def Question.Anonymous : Question → Prop
  | .query q | .queryCount q | .queryAny q => q.Anonymous
  | .nodeLink keep _ => ∀ id n, keep (n.retag id) = keep n
  | .nodeJson _ | .edgeJson _ => False
  | _ => True

def Request.Anonymous : Request → Prop
  | .change _ => True
  | .ask q => q.Anonymous

end Anonymous

variable (id id' : GraphId)

section Replaced

@[simp] theorem Node.retag_retag (n : Node) : (n.retag id).retag id' = n.retag id' := rfl

@[simp] theorem Edge.retag_retag (e : Edge) : (e.retag id).retag id' = e.retag id' := rfl

@[simp] theorem Outcome.retag_retag (o : Outcome) : (o.retag id).retag id' = o.retag id' := by
  cases o <;> rfl

@[simp] theorem Reply.retag_retag (r : Reply) : (r.retag id).retag id' = r.retag id' := by
  cases r with
  | outcome o => exact congrArg outcome (o.retag_retag id id')
  | nodes ns => simp [retag]
  | edges es => simp [retag]
  | _ => rfl

end Replaced

theorem Node.retag_edit (n : Node) (edit : Edit) :
    (n.edit edit).retag id = (n.retag id).edit edit := by
  cases edit with
  | addCategory c =>
    have hsame : (n.retag id).hasCategory c = n.hasCategory c := rfl
    simp only [Node.edit, hsame]
    split <;> rfl
  | _ => rfl

theorem Node.retag_editAll (n : Node) (edits : List Edit) :
    (n.editAll edits).retag id = (n.retag id).editAll edits := by
  induction edits generalizing n with
  | nil => rfl
  | cons edit edits ih =>
    rw [editAll, List.foldl_cons, ← editAll, ih, retag_edit]
    rfl

theorem Edge.retag_edit (e : Edge) (edit : Edit) :
    (e.edit edit).retag id = (e.retag id).edit edit := by
  cases edit <;> rfl

theorem Edge.retag_editAll (e : Edge) (edits : List Edit) :
    (e.editAll edits).retag id = (e.retag id).editAll edits := by
  induction edits generalizing e with
  | nil => rfl
  | cons edit edits ih =>
    rw [editAll, List.foldl_cons, ← editAll, ih, retag_edit]
    rfl

namespace Graph

variable (g : Graph)

section Reading

theorem node?_clone_retag (h : NodeHandle) :
    (g.clone id).node? h = (g.node? h).map (Node.retag id) := g.node?_clone id h

theorem edge?_clone_retag (k : EdgeHandle) :
    (g.clone id).edge? k = (g.edge? k).map (Edge.retag id) := g.edge?_clone id k

@[simp] theorem hasNode_clone (h : NodeHandle) : (g.clone id).hasNode h = g.hasNode h := by
  simp [hasNode, node?_clone_retag]

@[simp] theorem hasEdge_clone (k : EdgeHandle) : (g.clone id).hasEdge k = g.hasEdge k := by
  simp [hasEdge, edge?_clone_retag]

theorem map_node?_clone {α : Type} {f : Node → α} (hf : ∀ n, f (n.retag id) = f n)
    (h : NodeHandle) : ((g.clone id).node? h).map f = (g.node? h).map f := by
  rw [node?_clone_retag, Option.map_map, show f ∘ Node.retag id = f from funext hf]

theorem map_edge?_clone {α : Type} {f : Edge → α} (hf : ∀ e, f (e.retag id) = f e)
    (k : EdgeHandle) : ((g.clone id).edge? k).map f = (g.edge? k).map f := by
  rw [edge?_clone_retag, Option.map_map, show f ∘ Edge.retag id = f from funext hf]

@[simp] theorem outEdges_clone (h : NodeHandle) : (g.clone id).outEdges h = g.outEdges h := by
  rw [outEdges, g.map_node?_clone id (fun _ => rfl), outEdges]

@[simp] theorem inEdges_clone (h : NodeHandle) : (g.clone id).inEdges h = g.inEdges h := by
  rw [inEdges, g.map_node?_clone id (fun _ => rfl), inEdges]

theorem successors_clone (h : NodeHandle) : (g.clone id).successors h = g.successors h := by
  simp only [successors, outEdges_clone, g.map_edge?_clone id (f := Edge.destination) fun _ => rfl]

theorem predecessors_clone (h : NodeHandle) : (g.clone id).predecessors h = g.predecessors h := by
  simp only [predecessors, inEdges_clone, g.map_edge?_clone id (f := Edge.source) fun _ => rfl]

theorem edgesBetween_clone (source destination : NodeHandle) :
    (g.clone id).edgesBetween source destination = g.edgesBetween source destination := by
  simp only [edgesBetween, outEdges_clone, edge?_clone_retag, Option.any_map]
  rfl

theorem nodeOfId?_clone (s : String) :
    (g.clone id).nodeOfId? s = (g.nodeOfId? s).map (Node.retag id) := by
  cases hs : g.nodeHandle? s <;> simp [nodeOfId?, hs, node?_clone_retag]

theorem edgeOfId?_clone (s : String) :
    (g.clone id).edgeOfId? s = (g.edgeOfId? s).map (Edge.retag id) := by
  cases hs : g.edgeHandle? s <;> simp [edgeOfId?, hs, edge?_clone_retag]

theorem nodes_clone : (g.clone id).nodes = g.nodes.map fun (h, n) => (h, n.retag id) := by
  simp only [nodes, List.map_filterMap, node?_clone_retag, Option.map_map]
  rfl

theorem edges_clone : (g.clone id).edges = g.edges.map fun (k, e) => (k, e.retag id) := by
  simp only [edges, List.map_filterMap, edge?_clone_retag, Option.map_map]
  rfl

end Reading

section Changing

def Changed.clone {α : Type} (id : GraphId) (c : Changed α) : Changed α := (c.1, c.2.clone id)

theorem modifyNode_clone {f : Node → Node} (hf : ∀ n, (f n).retag id = f (n.retag id))
    (h : NodeHandle) : (g.clone id).modifyNode h f = (g.modifyNode h f).clone id :=
  congrArg (fun slots => { g.clone id with nodeSlots := slots })
    (Arena.map_modify hf g.nodeSlots h.slot).symm

theorem modifyEnds_clone (f f' : Node → Node) (hf : ∀ n, (f n).retag id = f (n.retag id))
    (hf' : ∀ n, (f' n).retag id = f' (n.retag id)) (s d : NodeHandle) :
    ((g.clone id).modifyNode s f).modifyNode d f' =
      ((g.modifyNode s f).modifyNode d f').clone id := by
  rw [g.modifyNode_clone id hf, modifyNode_clone id _ hf']

theorem modifyEdge_clone {f : Edge → Edge} (hf : ∀ e, (f e).retag id = f (e.retag id))
    (k : EdgeHandle) : (g.clone id).modifyEdge k f = (g.modifyEdge k f).clone id :=
  congrArg (fun slots => { g.clone id with edgeSlots := slots })
    (Arena.map_modify hf g.edgeSlots k.slot).symm

theorem insertNode_clone (key label : String) :
    (g.clone id).insertNode key label = (g.insertNode key label).clone id := by
  simp [insertNode, Changed.clone, clone, Arena.map_push, Node.isolated]

theorem insertEdge_clone (r : Relation) (key label : String) (s d : NodeHandle) :
    (g.clone id).insertEdge r key label s d = (g.insertEdge r key label s d).clone id := by
  let h : EdgeHandle := ⟨g.edgeSlots.size⟩
  let edge : Edge := ⟨key, label, .one, r, s, d, g.id⟩
  let pushed : Graph :=
    { g with edgeSlots := g.edgeSlots.push edge, edgeIds := g.edgeIds.insert key h }
  have hpushed : pushed.clone id =
      { g.clone id with
        edgeSlots := (g.clone id).edgeSlots.push (edge.retag id)
        edgeIds := (g.clone id).edgeIds.insert key h } := by
    simp [pushed, clone, Arena.map_push, Edge.retag]
  have hsize : (g.clone id).edgeSlots.size = g.edgeSlots.size := g.edgeSlots.size_map _
  have hlinked := pushed.modifyEnds_clone id (·.linkOut h) (·.linkIn h) (fun _ => rfl)
    (fun _ => rfl) s d
  rw [hpushed] at hlinked
  simp only [insertEdge, hsize]
  exact Prod.ext rfl hlinked

theorem putNode_clone (key label : String) :
    (g.clone id).putNode key label = (g.putNode key label).clone id := by
  simp only [putNode, nodeHandle?_clone]
  cases g.nodeHandle? key with
  | none => exact g.insertNode_clone id key label
  | some h => exact Prod.ext rfl (g.modifyNode_clone id (fun n => n.retag_edit id _) h)

theorem checkEndpoints_clone (s d : NodeHandle) :
    (g.clone id).checkEndpoints s d = g.checkEndpoints s d := by
  simp only [checkEndpoints, hasNode_clone]

theorem putEdge_clone (r : Relation) (key label : String) (s d : NodeHandle) :
    (g.clone id).putEdge r key label s d = (g.putEdge r key label s d).clone id := by
  unfold putEdge
  rw [checkEndpoints_clone, edgeHandle?_clone]
  cases g.checkEndpoints s d with
  | error e => rfl
  | ok _ =>
    cases g.edgeHandle? key with
    | none =>
      dsimp only
      rw [insertEdge_clone]
      rfl
    | some h =>
      dsimp only
      rw [edge?_clone_retag]
      cases g.edge? h with
      | none => rfl
      | some e =>
        have hedit := g.modifyEdge_clone id (fun e => e.retag_edit id (.relabel label)) h
        simp only [Option.map_some, Edge.retag, hedit]
        cases e.relation == r <;> rfl

theorem freshNode_clone (label : String) (draws : List Uuid) :
    (g.clone id).freshNode label draws = (g.freshNode label draws).clone id := by
  have hids : (g.clone id).nodeIds = g.nodeIds := rfl
  simp only [freshNode, hids]
  cases firstUnused g.nodeIds draws with
  | none => rfl
  | some key =>
    dsimp only
    rw [insertNode_clone]
    rfl

theorem freshEdge_clone (r : Relation) (label : String) (s d : NodeHandle) (draws : List Uuid) :
    (g.clone id).freshEdge r label s d draws = (g.freshEdge r label s d draws).clone id := by
  have hids : (g.clone id).edgeIds = g.edgeIds := rfl
  simp only [freshEdge, checkEndpoints_clone, hids]
  cases g.checkEndpoints s d with
  | error e => rfl
  | ok _ =>
    cases firstUnused g.edgeIds draws with
    | none => rfl
    | some key =>
      dsimp only
      rw [insertEdge_clone]
      rfl

theorem eraseEdge_clone (k : EdgeHandle) :
    (g.clone id).eraseEdge k = (g.eraseEdge k).map (Except.map (Edge.retag id)) (·.clone id) := by
  simp only [eraseEdge, edge?_clone_retag]
  cases g.edge? k with
  | none => rfl
  | some e =>
    let freed : Graph :=
      { g with edgeSlots := g.edgeSlots.free k.slot, edgeIds := g.edgeIds.erase e.id }
    have hfreed : freed.clone id =
        { g.clone id with
          edgeSlots := (g.clone id).edgeSlots.free k.slot
          edgeIds := (g.clone id).edgeIds.erase e.id } := by
      simp [freed, clone, Arena.map_free]
    have hunlinked := freed.modifyEnds_clone id (·.unlinkOut k) (·.unlinkIn k) (fun _ => rfl)
      (fun _ => rfl) e.source e.destination
    rw [hfreed] at hunlinked
    exact Prod.ext rfl hunlinked

theorem eraseEdges_clone (ks : List EdgeHandle) :
    (g.clone id).eraseEdges ks = (g.eraseEdges ks).clone id := by
  induction ks generalizing g with
  | nil => rfl
  | cons k ks ih =>
    simp only [eraseEdges, eraseEdge_clone]
    obtain ⟨e | e, g'⟩ := g.eraseEdge k
    · rfl
    · exact ih g'

theorem eraseNode_clone (h : NodeHandle) :
    (g.clone id).eraseNode h = (g.eraseNode h).map (Except.map (Node.retag id)) (·.clone id) := by
  simp only [eraseNode, node?_clone_retag]
  cases g.node? h with
  | none => rfl
  | some before =>
    have hincident : incidentEdges (before.retag id) = incidentEdges before := rfl
    simp only [Option.map_some, hincident, eraseEdges_clone]
    obtain ⟨e | u, g'⟩ := g.eraseEdges (incidentEdges before)
    · rfl
    · simp only [Changed.clone, node?_clone_retag]
      cases g'.node? h with
      | none => rfl
      | some n => simp [clone, Arena.map_free, Except.map, Node.retag]

theorem editNode_clone (h : NodeHandle) (edits : List Node.Edit) :
    (g.clone id).editNode h edits =
      (g.editNode h edits).map (Option.map (Node.retag id)) (·.clone id) := by
  have hedit := g.modifyNode_clone id (fun n => n.retag_editAll id edits) h
  simp only [editNode, hedit, node?_clone_retag]
  rfl

theorem editEdge_clone (k : EdgeHandle) (edits : List Edge.Edit) :
    (g.clone id).editEdge k edits =
      (g.editEdge k edits).map (Option.map (Edge.retag id)) (·.clone id) := by
  have hedit := g.modifyEdge_clone id (fun e => e.retag_editAll id edits) k
  simp only [editEdge, hedit, edge?_clone_retag]
  rfl

theorem updateNode_clone (h : NodeHandle) (e : Node.Edit) :
    (g.clone id).updateNode h e = (g.updateNode h e).clone id := by
  have hedit := g.modifyNode_clone id (fun n => n.retag_edit id e) h
  simp only [updateNode, hasNode_clone, hedit]
  cases g.hasNode h <;> rfl

theorem updateEdge_clone (k : EdgeHandle) (e : Edge.Edit) :
    (g.clone id).updateEdge k e = (g.updateEdge k e).clone id := by
  have hedit := g.modifyEdge_clone id (fun edge => edge.retag_edit id e) k
  simp only [updateEdge, hasEdge_clone, hedit]
  cases g.hasEdge k <;> rfl

theorem clear_clone : (g.clone id).clear = g.clear.clone id := by
  simp [clear, clone, Arena.map_clear]

theorem clone_clone : (g.clone id).clone id' = g.clone id' := by
  have hmap : ∀ {α : Type} (a : Arena α) (f f' : α → α), (∀ x, f' (f x) = f' x) →
      (a.map f).map f' = a.map f' := by
    intro α a f f' hf
    refine Arena.ext_get? (by simp) fun i => ?_
    simp [Arena.get?_map, Function.comp_def, hf]
  unfold clone
  congr 1 <;> exact hmap _ _ _ fun _ => rfl

end Changing

end Graph

namespace Outcome

theorem node_retag (n : Node) : node (n.retag id) = (node n).retag id := rfl

theorem edge_retag (e : Edge) : edge (e.retag id) = (edge e).retag id := rfl

variable {α : Type} {f : α → Outcome}

theorem retag_ofExcept (hf : ∀ a, (f a).retag id = f a) (e : Except GraphError α) :
    (ofExcept f e).retag id = ofExcept f e := by
  cases e with
  | error e => rfl
  | ok a => exact hf a

theorem retag_ofOption (hf : ∀ a, (f a).retag id = f a) (a? : Option α) :
    (ofOption f a?).retag id = ofOption f a? := by
  cases a? with
  | none => rfl
  | some a => exact hf a

theorem ofOption_map {r : α → α} (hf : ∀ a, f (r a) = (f a).retag id) (a? : Option α) :
    ofOption f (a?.map r) = (ofOption f a?).retag id := by
  cases a? with
  | none => rfl
  | some a => exact hf a

theorem ofExcept_map {r : α → α} (hf : ∀ a, f (r a) = (f a).retag id) (e : Except GraphError α) :
    ofExcept f (e.map r) = (ofExcept f e).retag id := by
  cases e with
  | error e => rfl
  | ok a => exact hf a

end Outcome

namespace Operation

theorem answer_map {α : Type} {f : α → Outcome} {r : α → α} (hf : ∀ a, f (r a) = (f a).retag id)
    (c : Graph.Changed α) :
    answer f (c.map r (·.clone id)) = (answer f c).map (Outcome.retag id) (·.clone id) :=
  Prod.ext (hf c.1) rfl

theorem answer_clone {α : Type} {f : α → Outcome} (hf : ∀ a, (f a).retag id = f a)
    (c : Graph.Changed α) :
    answer f (c.clone id) = (answer f c).map (Outcome.retag id) (·.clone id) :=
  answer_map id (r := fun a => a) (fun a => (hf a).symm) c

/-- An operation goes through in a copy as in the graph, and the new entries bear the tags of the
copy. -/
theorem apply_clone (g : Graph) {op : Operation} (hop : ∀ id', op ≠ clone id') :
    op.apply (g.clone id) = (op.apply g).map (Outcome.retag id) (·.clone id) := by
  cases op with
  | putNode key label =>
    simp only [apply, Graph.putNode_clone]
    exact answer_clone id (fun _ => rfl) _
  | freshNode label draws =>
    simp only [apply, Graph.freshNode_clone]
    exact answer_clone id (Outcome.retag_ofOption id fun _ => rfl) _
  | putEdge r key label s d =>
    simp only [apply, Graph.putEdge_clone]
    exact answer_clone id (Outcome.retag_ofExcept id fun _ => rfl) _
  | freshEdge r label s d draws =>
    simp only [apply, Graph.freshEdge_clone]
    exact answer_clone id (Outcome.retag_ofExcept id (Outcome.retag_ofOption id fun _ => rfl)) _
  | eraseNode h =>
    simp only [apply, Graph.eraseNode_clone]
    exact answer_map id (Outcome.ofExcept_map id (Outcome.node_retag id)) _
  | eraseEdge k =>
    simp only [apply, Graph.eraseEdge_clone]
    exact answer_map id (Outcome.ofExcept_map id (Outcome.edge_retag id)) _
  | updateNode h e =>
    simp only [apply, Graph.updateNode_clone]
    exact answer_clone id (Outcome.retag_ofExcept id fun _ => rfl) _
  | updateEdge k e =>
    simp only [apply, Graph.updateEdge_clone]
    exact answer_clone id (Outcome.retag_ofExcept id fun _ => rfl) _
  | editNode h edits =>
    simp only [apply, Graph.editNode_clone]
    exact answer_map id (Outcome.ofOption_map id (Outcome.node_retag id)) _
  | editEdge k edits =>
    simp only [apply, Graph.editEdge_clone]
    exact answer_map id (Outcome.ofOption_map id (Outcome.edge_retag id)) _
  | clear => exact Prod.ext rfl (g.clear_clone id)
  | clone id' => exact absurd rfl (hop id')

end Operation

section Reading

variable (g : Graph)

theorem Filter.passes_clone {f : Filter} (hf : f.Anonymous) (n : Node) :
    f.passes (g.clone id) (n.retag id) = f.passes g n := by
  cases f with
  | hasOutRelation r =>
    simp only [passes, Graph.edge?_clone_retag, Option.any_map]
    rfl
  | satisfies p => exact hf id n
  | _ => rfl

namespace Query

variable {q : Query}

theorem accepts_clone (hq : q.Anonymous) (n : Node) :
    q.accepts (g.clone id) (n.retag id) = q.accepts g n := by
  rw [Bool.eq_iff_iff, accepts, accepts, List.all_eq_true, List.all_eq_true]
  refine forall₂_congr fun f hf => ?_
  rw [f.passes_clone id g (hq f hf)]

theorem hits_clone (hq : q.Anonymous) : q.hits (g.clone id) = q.hits g := by
  simp only [hits, Graph.nodes_clone, List.filter_map, List.map_map, Function.comp_def,
    accepts_clone id g hq]

theorem run_clone (hq : q.Anonymous) : q.run (g.clone id) = q.run g := by
  simp only [run, hits_clone id g hq]

theorem any_clone (hq : q.Anonymous) : q.any (g.clone id) = q.any g := by
  simp only [any, Graph.nodes_clone, List.any_map, Function.comp_def, accepts_clone id g hq]

end Query

namespace Graph

theorem dotStyled_clone (style : Dot.Style) : (g.clone id).dotStyled style = g.dotStyled style := by
  simp only [dotStyled, Dot.lines, nodes_clone, edges_clone, List.map_map]
  rfl

theorem nodeLinkOf_clone {keep : Node → Bool} (hkeep : ∀ n, keep (n.retag id) = keep n)
    (withEdges : Bool) :
    (g.clone id).nodeLinkOf keep withEdges = g.nodeLinkOf keep withEdges := by
  have hedge : ∀ e : Edge, NodeLink.edgeJson (g.clone id) (e.retag id) = NodeLink.edgeJson g e := by
    intro e
    have hend : ∀ h, NodeLink.endpointJson (g.clone id) h = NodeLink.endpointJson g h := by
      intro h
      unfold NodeLink.endpointJson
      rw [node?_clone_retag]
      cases g.node? h <;> rfl
    simp only [NodeLink.edgeJson, hend]
    rfl
  cases withEdges with
  | false =>
    simp only [nodeLinkOf, NodeLink.document, nodes_clone, List.filter_map, List.map_map,
      Function.comp_def, hkeep, Bool.false_eq_true, if_false]
    rfl
  | true =>
    simp only [nodeLinkOf, NodeLink.document, nodes_clone, edges_clone, List.filter_map,
      List.map_map, Function.comp_def, hkeep, hedge, if_true]
    rfl

theorem navigation_comap_clone : navigation.comap (fun g => g.clone id) = navigation := by
  have hcontains : ∀ g : Graph, (g.clone id).hasNode = g.hasNode := fun g =>
    funext (g.hasNode_clone id)
  simp only [navigation, Walk.Navigation.comap, Function.comp_def, outEdges_clone, inEdges_clone,
    map_edge?_clone id _ (f := Edge.destination) fun _ => rfl,
    map_edge?_clone id _ (f := Edge.source) fun _ => rfl, hcontains]

theorem stepBound_clone : (g.clone id).stepBound = g.stepBound := by
  have hslots : (g.clone id).nodeSlots.toList = g.nodeSlots.toList.map (Node.retag id) := by
    simp only [clone, Arena.toList, Arena.map, Array.toList_map, List.filterMap_map,
      List.map_filterMap]
    rfl
  simp only [stepBound, pushBound, hslots, List.foldl_map]
  rfl

theorem searches_clone (h : NodeHandle) :
    (g.clone id).hasCycle h = g.hasCycle h ∧ (g.clone id).firstCycle? h = g.firstCycle? h ∧
      (g.clone id).allCycles h = g.allCycles h ∧
      (∀ flags, (g.clone id).reachable h flags = g.reachable h flags) ∧
      (g.clone id).topologicalOrder h = g.topologicalOrder h :=
  searches_eq_of_comap (navigation_comap_clone id) (g.stepBound_clone id) h

end Graph

end Reading

namespace Reply

theorem retag_ofOption {α : Type} {f : α → Outcome} (hf : ∀ a, (f a).retag id = f a)
    (a? : Option α) : (ofOption f a?).retag id = ofOption f a? :=
  congrArg outcome (Outcome.retag_ofOption id hf a?)

theorem ofOption_map {α : Type} {f : α → Outcome} {r : α → α}
    (hf : ∀ a, f (r a) = (f a).retag id) (a? : Option α) :
    ofOption f (a?.map r) = (ofOption f a?).retag id :=
  congrArg outcome (Outcome.ofOption_map id hf a?)

end Reply

theorem Question.reply_clone (g : Graph) {q : Question} (hq : q.Anonymous) :
    q.reply (g.clone id) = (q.reply g).retag id := by
  cases q with
  | nodeHandle key | edgeHandle key => exact (Reply.retag_ofOption id (fun _ => rfl) _).symm
  | node h =>
    simp only [reply, Graph.node?_clone_retag]
    exact Reply.ofOption_map id (Outcome.node_retag id) _
  | edge k =>
    simp only [reply, Graph.edge?_clone_retag]
    exact Reply.ofOption_map id (Outcome.edge_retag id) _
  | nodeOfId key =>
    simp only [reply, Graph.nodeOfId?_clone]
    exact Reply.ofOption_map id (Outcome.node_retag id) _
  | edgeOfId key =>
    simp only [reply, Graph.edgeOfId?_clone]
    exact Reply.ofOption_map id (Outcome.edge_retag id) _
  | hasNode h => exact congrArg Reply.flag (g.hasNode_clone id h)
  | hasEdge k => exact congrArg Reply.flag (g.hasEdge_clone id k)
  | outEdges h => exact congrArg Reply.edgeHandles (g.outEdges_clone id h)
  | inEdges h => exact congrArg Reply.edgeHandles (g.inEdges_clone id h)
  | successors h => exact congrArg Reply.nodeHandles (g.successors_clone id h)
  | predecessors h => exact congrArg Reply.nodeHandles (g.predecessors_clone id h)
  | edgesBetween s d => exact congrArg Reply.edgeHandles (g.edgesBetween_clone id s d)
  | nodes => exact congrArg Reply.nodes (g.nodes_clone id)
  | edges => exact congrArg Reply.edges (g.edges_clone id)
  | query q => exact congrArg Reply.nodeHandles (Query.run_clone id g hq)
  | queryCount q => exact congrArg (Reply.number ·.length) (Query.hits_clone id g hq)
  | queryAny q => exact congrArg Reply.flag (Query.any_clone id g hq)
  | findNodes text =>
    have hfilter : ({ filters := [.labelContains text] } : Query).Anonymous := by
      intro f hf
      rw [List.mem_singleton.mp hf]
      trivial
    exact congrArg Reply.nodeHandles (Query.run_clone id g hfilter)
  | dot style => exact congrArg Reply.text (g.dotStyled_clone id style)
  | nodeLink keep withEdges =>
    exact congrArg Reply.text (g.nodeLinkOf_clone id (hq id) withEdges)
  | nodeJson h | edgeJson k => exact hq.elim
  | hasCycle h => exact congrArg Reply.flag (g.searches_clone id h).1
  | firstCycle h =>
    simp only [reply, (g.searches_clone id h).2.1]
    exact (Reply.retag_ofOption id (fun _ => rfl) _).symm
  | allCycles h => exact congrArg Reply.nodeHandles (g.searches_clone id h).2.2.1
  | reachable h flags => exact congrArg Reply.nodeHandles ((g.searches_clone id h).2.2.2.1 flags)
  | topologicalOrder h => exact congrArg Reply.nodeHandles (g.searches_clone id h).2.2.2.2
  | nodeCount | edgeCount | isEmpty => rfl

/-- Whether a request makes a copy and goes on with that. -/
def Request.copies : Request → Bool
  | change (.clone _) => true
  | _ => false

theorem Request.answer_clone (g : Graph) {r : Request} (hr : r.Anonymous) (hc : r.copies = false) :
    r.answer (g.clone id) = (r.answer g).map (Reply.retag id) (·.clone id) := by
  cases r with
  | ask q => exact Prod.ext (q.reply_clone id g hr) rfl
  | change op =>
    have hop : ∀ id', op ≠ .clone id' := by
      rintro id' rfl
      cases hc
    simp only [answer, op.apply_clone id g hop]
    rfl

theorem Request.answer_clone_of_copies (g : Graph) {r : Request} (hc : r.copies = true) :
    r.answer (g.clone id) = r.answer g := by
  match r, hc with
  | change (.clone id'), _ => exact Prod.ext rfl (g.clone_clone id id')

end Multidigraph
