import Multidigraph.Proofs.Search
import Multidigraph.Script

namespace Multidigraph

section Plain

def Relation.plain (r : Relation) : Relation := .ofName r.name

def Edge.plain (e : Edge) : Edge := { e with relation := e.relation.plain }

def Graph.plain (g : Graph) : Graph := { g with edgeSlots := g.edgeSlots.map Edge.plain }

def Filter.plain : Filter → Filter
  | .hasOutRelation r => .hasOutRelation r.plain
  | f => f

def Query.plain (q : Query) : Query := { q with filters := q.filters.map Filter.plain }

def Dot.Style.plain (style : Dot.Style) : Dot.Style :=
  { style with
    relationColors := style.relationColors.map fun (r, color) => (r.plain, color) }

def Operation.plain : Operation → Operation
  | .putEdge r id label source destination => .putEdge r.plain id label source destination
  | .freshEdge r label source destination draws =>
    .freshEdge r.plain label source destination draws
  | op => op

def Outcome.plain : Outcome → Outcome
  | .edge e => .edge e.plain
  | o => o

def Question.plain : Question → Question
  | .query q => .query q.plain
  | .queryCount q => .queryCount q.plain
  | .queryAny q => .queryAny q.plain
  | .dot style => .dot style.plain
  | q => q

def Reply.plain : Reply → Reply
  | .outcome o => .outcome o.plain
  | .edges es => .edges (es.map fun (h, e) => (h, e.plain))
  | r => r

def Request.plain : Request → Request
  | .change op => .change op.plain
  | .ask q => .ask q.plain

end Plain

namespace Relation

variable {r s : Relation}

@[simp] theorem name_plain (r : Relation) : r.plain.name = r.name := name_ofName r.name

@[simp] theorem plain_beq (r s : Relation) : (r.plain == s.plain) = (r == s) := by
  rw [Bool.eq_iff_iff]
  simp

@[simp] theorem plain_beq_default (r : Relation) : (r.plain == default) = (r == default) :=
  plain_beq r default

theorem plain_eq_plain_iff : r.plain = s.plain ↔ (r == s) = true := by
  rw [beq_iff_name]
  constructor
  · intro h
    rw [← name_plain r, h, name_plain]
  · intro h
    rw [plain, plain, h]

end Relation

namespace Edge

@[simp] theorem json_plain (e : Edge) : e.plain.json = e.json := by
  simp [json, plain]

theorem plain_edit (e : Edge) (edit : Edit) : (e.edit edit).plain = e.plain.edit edit := by
  cases edit <;> rfl

theorem plain_editAll (e : Edge) (edits : List Edit) :
    (e.editAll edits).plain = e.plain.editAll edits := by
  induction edits generalizing e with
  | nil => rfl
  | cons edit edits ih =>
    rw [editAll, List.foldl_cons, ← editAll, ih, plain_edit]
    rfl

end Edge

namespace Graph

variable (g : Graph)

section Reading

@[simp] theorem node?_plain (h : NodeHandle) : g.plain.node? h = g.node? h := rfl

@[simp] theorem edge?_plain (h : EdgeHandle) : g.plain.edge? h = (g.edge? h).map Edge.plain :=
  g.edgeSlots.get?_map Edge.plain h.slot

@[simp] theorem hasNode_plain (h : NodeHandle) : g.plain.hasNode h = g.hasNode h := rfl

@[simp] theorem nodeHandle?_plain (id : String) : g.plain.nodeHandle? id = g.nodeHandle? id := rfl

@[simp] theorem edgeHandle?_plain (id : String) : g.plain.edgeHandle? id = g.edgeHandle? id := rfl

@[simp] theorem outEdges_plain (h : NodeHandle) : g.plain.outEdges h = g.outEdges h := rfl

@[simp] theorem inEdges_plain (h : NodeHandle) : g.plain.inEdges h = g.inEdges h := rfl

@[simp] theorem nodes_plain : g.plain.nodes = g.nodes := rfl

@[simp] theorem hasEdge_plain (h : EdgeHandle) : g.plain.hasEdge h = g.hasEdge h := by
  simp [hasEdge]

theorem map_edge?_plain {α : Type} {f : Edge → α} (hf : ∀ e, f e.plain = f e) (h : EdgeHandle) :
    (g.plain.edge? h).map f = (g.edge? h).map f := by
  rw [edge?_plain, Option.map_map, show f ∘ Edge.plain = f from funext hf]

theorem successors_plain (h : NodeHandle) : g.plain.successors h = g.successors h := by
  simp only [successors, outEdges_plain, g.map_edge?_plain (f := Edge.destination) fun _ => rfl]

theorem predecessors_plain (h : NodeHandle) : g.plain.predecessors h = g.predecessors h := by
  simp only [predecessors, inEdges_plain, g.map_edge?_plain (f := Edge.source) fun _ => rfl]

theorem edgesBetween_plain (source destination : NodeHandle) :
    g.plain.edgesBetween source destination = g.edgesBetween source destination := by
  simp only [edgesBetween, edge?_plain, Option.any_map]
  rfl

theorem edgeOfId?_plain (id : String) :
    g.plain.edgeOfId? id = (g.edgeOfId? id).map Edge.plain := by
  cases hid : g.edgeHandle? id <;> simp [edgeOfId?, hid]

theorem edges_plain : g.plain.edges = g.edges.map fun (h, e) => (h, e.plain) := by
  simp only [edges, List.map_filterMap, edge?_plain, Option.map_map]
  rfl

end Reading

section Changing

def Changed.plain {α : Type} (c : Changed α) : Changed α := (c.1, c.2.plain)

theorem modifyEdge_plain {f : Edge → Edge} (hf : ∀ e, (f e).plain = f e.plain) (h : EdgeHandle) :
    (g.modifyEdge h f).plain = g.plain.modifyEdge h f :=
  congrArg (fun slots => { g with edgeSlots := slots }) (Arena.map_modify hf g.edgeSlots h.slot)

theorem insertEdge_plain (r : Relation) (key label : String) (s d : NodeHandle) :
    g.plain.insertEdge r.plain key label s d =
      (g.insertEdge r key label s d).plain := by
  simp [insertEdge, Changed.plain, plain, modifyNode, Arena.map_push, Edge.plain]

theorem putNode_plain (key label : String) :
    g.plain.putNode key label = (g.putNode key label).plain := by
  simp only [putNode, nodeHandle?_plain]
  cases g.nodeHandle? key <;> rfl

theorem checkEndpoints_plain (s d : NodeHandle) :
    g.plain.checkEndpoints s d = g.checkEndpoints s d := rfl

theorem putEdge_plain (r : Relation) (key label : String) (s d : NodeHandle) :
    g.plain.putEdge r.plain key label s d = (g.putEdge r key label s d).plain := by
  unfold putEdge
  rw [checkEndpoints_plain, edgeHandle?_plain]
  cases g.checkEndpoints s d with
  | error e => rfl
  | ok _ =>
    cases g.edgeHandle? key with
    | none => simp [insertEdge_plain, Changed.plain]
    | some h =>
      dsimp only
      rw [edge?_plain]
      cases g.edge? h with
      | none => rfl
      | some e =>
        have hedit := g.modifyEdge_plain (fun e => e.plain_edit (.relabel label)) h
        simp only [Option.map_some, Edge.plain, Relation.plain_beq, Relation.name_plain, ← hedit]
        cases e.relation == r <;> rfl

theorem freshNode_plain (label : String) (draws : List Uuid) :
    g.plain.freshNode label draws = (g.freshNode label draws).plain := by
  simp only [freshNode, plain]
  cases firstUnused g.nodeIds draws <;> rfl

theorem freshEdge_plain (r : Relation) (label : String) (s d : NodeHandle) (draws : List Uuid) :
    g.plain.freshEdge r.plain label s d draws =
      (g.freshEdge r label s d draws).plain := by
  have hids : g.plain.edgeIds = g.edgeIds := rfl
  simp only [freshEdge, checkEndpoints_plain, hids]
  cases g.checkEndpoints s d with
  | error e => rfl
  | ok _ => cases firstUnused g.edgeIds draws <;> simp [insertEdge_plain, Changed.plain]

theorem eraseEdge_plain (h : EdgeHandle) :
    g.plain.eraseEdge h = (g.eraseEdge h).map (Except.map Edge.plain) plain := by
  simp only [eraseEdge, edge?_plain]
  cases g.edge? h with
  | none => rfl
  | some e => simp [plain, modifyNode, Arena.map_free, Edge.plain, Except.map]

theorem eraseEdges_plain (hs : List EdgeHandle) :
    g.plain.eraseEdges hs = (g.eraseEdges hs).plain := by
  induction hs generalizing g with
  | nil => rfl
  | cons h hs ih =>
    simp only [eraseEdges, eraseEdge_plain]
    obtain ⟨e | e, g'⟩ := g.eraseEdge h
    · rfl
    · exact ih g'

theorem eraseNode_plain (h : NodeHandle) :
    g.plain.eraseNode h = (g.eraseNode h).plain := by
  simp only [eraseNode, node?_plain]
  cases g.node? h with
  | none => rfl
  | some before =>
    simp only [eraseEdges_plain]
    obtain ⟨e | u, g'⟩ := g.eraseEdges (incidentEdges before)
    · rfl
    · simp only [Changed.plain, node?_plain]
      cases g'.node? h <;> rfl

theorem editEdge_plain (h : EdgeHandle) (edits : List Edge.Edit) :
    g.plain.editEdge h edits = (g.editEdge h edits).map (Option.map Edge.plain) plain := by
  have hedit := g.modifyEdge_plain (fun e => e.plain_editAll edits) h
  simp only [editEdge, ← hedit, edge?_plain]
  rfl

theorem updateNode_plain (h : NodeHandle) (e : Node.Edit) :
    g.plain.updateNode h e = (g.updateNode h e).plain := by
  cases hn : g.hasNode h <;> simp only [updateNode, hasNode_plain, hn] <;> rfl

theorem updateEdge_plain (h : EdgeHandle) (e : Edge.Edit) :
    g.plain.updateEdge h e = (g.updateEdge h e).plain := by
  have hedit := g.modifyEdge_plain (fun edge => edge.plain_edit e) h
  simp only [updateEdge, hasEdge_plain, ← hedit]
  cases g.hasEdge h <;> rfl

theorem clear_plain : g.plain.clear = g.clear.plain := by
  simp [clear, plain, Arena.map_clear]

theorem clone_plain (graph : GraphId) : g.plain.clone graph = (g.clone graph).plain := by
  have hslots := Arena.map_comm (f := Edge.plain) (g := ({ · with graph })) (fun _ => rfl)
    g.edgeSlots
  simp only [clone, plain, hslots]

end Changing

end Graph

namespace Outcome

variable {α : Type} {f : α → Outcome}

theorem ofExcept_plain (hf : ∀ a, (f a).plain = f a) (e : Except GraphError α) :
    (ofExcept f e).plain = ofExcept f e := by
  cases e with
  | error e => rfl
  | ok a => exact hf a

theorem ofOption_plain (hf : ∀ a, (f a).plain = f a) (a? : Option α) :
    (ofOption f a?).plain = ofOption f a? := by
  cases a? with
  | none => rfl
  | some a => exact hf a

theorem ofOption_edge (e? : Option Edge) :
    ofOption edge (e?.map Edge.plain) = (ofOption edge e?).plain := by
  cases e? <;> rfl

end Outcome

namespace Operation

theorem answer_plain {α : Type} {f : α → Outcome} (hf : ∀ a, (f a).plain = f a)
    (c : Graph.Changed α) :
    answer f c.plain = (answer f c).map Outcome.plain Graph.plain :=
  Prod.ext (hf c.1).symm rfl

/-- An operation goes through the first spelling. -/
theorem apply_plain (op : Operation) (g : Graph) :
    op.plain.apply g.plain = (op.apply g).map Outcome.plain Graph.plain := by
  cases op with
  | putNode key label =>
    simp only [plain, apply, Graph.putNode_plain]
    exact answer_plain (fun _ => rfl) _
  | freshNode label draws =>
    simp only [plain, apply, Graph.freshNode_plain]
    exact answer_plain (Outcome.ofOption_plain fun _ => rfl) _
  | putEdge r key label s d =>
    simp only [plain, apply, Graph.putEdge_plain]
    exact answer_plain (Outcome.ofExcept_plain fun _ => rfl) _
  | freshEdge r label s d draws =>
    simp only [plain, apply, Graph.freshEdge_plain]
    exact answer_plain (Outcome.ofExcept_plain (Outcome.ofOption_plain fun _ => rfl)) _
  | eraseNode h =>
    simp only [plain, apply, Graph.eraseNode_plain]
    exact answer_plain (Outcome.ofExcept_plain fun _ => rfl) _
  | eraseEdge h =>
    simp only [plain, apply, Graph.eraseEdge_plain]
    obtain ⟨e | e, g'⟩ := g.eraseEdge h <;> rfl
  | updateNode h e =>
    simp only [plain, apply, Graph.updateNode_plain]
    exact answer_plain (Outcome.ofExcept_plain fun _ => rfl) _
  | updateEdge h e =>
    simp only [plain, apply, Graph.updateEdge_plain]
    exact answer_plain (Outcome.ofExcept_plain fun _ => rfl) _
  | editNode h edits =>
    exact answer_plain (Outcome.ofOption_plain fun _ => rfl) (g.editNode h edits)
  | editEdge h edits =>
    simp only [plain, apply, Graph.editEdge_plain]
    exact Prod.ext (Outcome.ofOption_edge _) rfl
  | clear => exact Prod.ext rfl g.clear_plain
  | clone graph => exact Prod.ext rfl (g.clone_plain graph)

end Operation

section Reading

variable (g : Graph)

theorem Filter.passes_plain (n : Node) (f : Filter) : f.plain.passes g.plain n = f.passes g n := by
  cases f with
  | hasOutRelation r =>
    have hsame : ∀ e : Edge, (e.plain.relation == r.plain) = (e.relation == r) := fun e =>
      Relation.plain_beq e.relation r
    simp only [plain, passes, Graph.edge?_plain, Option.any_map, hsame]
  | _ => rfl

namespace Query

theorem accepts_plain (q : Query) (n : Node) : q.plain.accepts g.plain n = q.accepts g n := by
  simp only [accepts, plain, List.all_map, Function.comp_def, Filter.passes_plain]

theorem hits_plain (q : Query) : q.plain.hits g.plain = q.hits g := by
  simp only [hits, accepts_plain, Graph.nodes_plain]

theorem run_plain (q : Query) : q.plain.run g.plain = q.run g := by
  simp only [run, hits_plain]
  rfl

theorem count_plain (q : Query) : q.plain.count g.plain = q.count g := by
  rw [count, hits_plain, count]

theorem any_plain (q : Query) : q.plain.any g.plain = q.any g := by
  simp only [any, accepts_plain, Graph.nodes_plain]

end Query

theorem Graph.findNodes_plain (text : String) : g.plain.findNodes text = g.findNodes text :=
  Query.run_plain g { filters := [.labelContains text] }

namespace Dot

theorem lookup_plain (colors : List (Relation × String)) (r : Relation) :
    (colors.map fun (r, color) => (r.plain, color)).lookup r.plain = colors.lookup r := by
  induction colors with
  | nil => rfl
  | cons entry colors ih =>
    obtain ⟨s, color⟩ := entry
    simp only [List.map_cons, List.lookup_cons, Relation.plain_beq, ih]

theorem edgeLine_plain (style : Style) (e : Edge) :
    edgeLine style.plain e.plain = edgeLine style e := by
  simp only [edgeLine, edgeLabel, edgeColor, Style.plain, Edge.plain, lookup_plain,
    Relation.plain_beq_default, Relation.name_plain]
  rfl

theorem lines_plain (style : Style) : lines style.plain g.plain = lines style g := by
  simp only [lines, Graph.nodes_plain, Graph.edges_plain, List.map_map, Function.comp_def,
    edgeLine_plain]
  rfl

end Dot

theorem NodeLink.edgeJson_plain (e : Edge) : edgeJson g.plain e.plain = edgeJson g e := by
  simp only [edgeJson, Edge.plain, Relation.name_plain]
  rfl

theorem NodeLink.document_plain (keep : Node → Bool) (withEdges : Bool) :
    document g.plain keep withEdges = document g keep withEdges := by
  cases withEdges with
  | false => rfl
  | true =>
    simp only [document, Graph.nodes_plain, Graph.edges_plain, List.filter_map, List.map_map,
      if_true, Function.comp_def, edgeJson_plain]
    rfl

namespace Graph

theorem dotStyled_plain (style : Dot.Style) :
    g.plain.dotStyled style.plain = g.dotStyled style := by
  simp only [dotStyled, Dot.lines_plain]

theorem nodeLinkOf_plain (keep : Node → Bool) (withEdges : Bool) :
    g.plain.nodeLinkOf keep withEdges = g.nodeLinkOf keep withEdges := by
  simp only [nodeLinkOf, NodeLink.document_plain]

theorem navigation_comap_plain : navigation.comap plain = navigation := by
  simp only [navigation, Walk.Navigation.comap, Function.comp_def, outEdges_plain, inEdges_plain,
    map_edge?_plain _ (f := Edge.destination) fun _ => rfl,
    map_edge?_plain _ (f := Edge.source) fun _ => rfl]
  rfl

theorem hasCycle_plain (h : NodeHandle) : g.plain.hasCycle h = g.hasCycle h := by
  unfold hasCycle
  rw [Walk.hasCycle_comap, navigation_comap_plain]
  rfl

theorem firstCycle?_plain (h : NodeHandle) : g.plain.firstCycle? h = g.firstCycle? h := by
  unfold firstCycle?
  rw [Walk.firstCycle?_comap, navigation_comap_plain]
  rfl

theorem allCycles_plain (h : NodeHandle) : g.plain.allCycles h = g.allCycles h := by
  unfold allCycles
  rw [Walk.allCycles_comap, navigation_comap_plain]
  rfl

theorem reachable_plain (h : NodeHandle) (flags : Walk.Flags) :
    g.plain.reachable h flags = g.reachable h flags := by
  unfold reachable
  rw [Walk.reachable_comap, navigation_comap_plain]
  rfl

theorem topologicalOrder_plain (h : NodeHandle) :
    g.plain.topologicalOrder h = g.topologicalOrder h := by
  unfold topologicalOrder
  rw [Walk.topologicalOrder_comap, navigation_comap_plain]
  rfl

end Graph

end Reading

namespace Reply

theorem ofOption_plain {α : Type} {f : α → Outcome} (hf : ∀ a, (f a).plain = f a) (a? : Option α) :
    (ofOption f a?).plain = ofOption f a? :=
  congrArg outcome (Outcome.ofOption_plain hf a?)

theorem ofOption_edge (e? : Option Edge) :
    ofOption .edge (e?.map Edge.plain) = (ofOption .edge e?).plain :=
  congrArg outcome (Outcome.ofOption_edge e?)

theorem ofText?_plain (s? : Option String) : (ofText? s?).plain = ofText? s? := by
  cases s? <;> rfl

end Reply

theorem Question.reply_plain (q : Question) (g : Graph) :
    q.plain.reply g.plain = (q.reply g).plain := by
  cases q with
  | nodeHandle id | edgeHandle id | node h | nodeOfId id =>
    exact (Reply.ofOption_plain (fun _ => rfl) _).symm
  | edge h =>
    simp only [plain, reply, Graph.edge?_plain]
    exact Reply.ofOption_edge (g.edge? h)
  | edgeOfId id =>
    simp only [plain, reply, Graph.edgeOfId?_plain]
    exact Reply.ofOption_edge (g.edgeOfId? id)
  | hasEdge h => exact congrArg Reply.flag (g.hasEdge_plain h)
  | successors h => exact congrArg Reply.nodeHandles (g.successors_plain h)
  | predecessors h => exact congrArg Reply.nodeHandles (g.predecessors_plain h)
  | edgesBetween s d => exact congrArg Reply.edgeHandles (g.edgesBetween_plain s d)
  | edges => exact congrArg Reply.edges g.edges_plain
  | query q => exact congrArg Reply.nodeHandles (q.run_plain g)
  | queryCount q => exact congrArg Reply.number (q.count_plain g)
  | queryAny q => exact congrArg Reply.flag (q.any_plain g)
  | findNodes text => exact congrArg Reply.nodeHandles (g.findNodes_plain text)
  | dot style => exact congrArg Reply.text (g.dotStyled_plain style)
  | nodeLink keep withEdges => exact congrArg Reply.text (g.nodeLinkOf_plain keep withEdges)
  | nodeJson h => exact (Reply.ofText?_plain _).symm
  | edgeJson h =>
    have hjson := g.map_edge?_plain (f := fun e => e.json.compact) (fun e => by rw [e.json_plain]) h
    simp only [plain, reply, hjson, Reply.ofText?_plain]
  | hasCycle h => exact congrArg Reply.flag (g.hasCycle_plain h)
  | firstCycle h =>
    simp only [plain, reply, Graph.firstCycle?_plain]
    exact (Reply.ofOption_plain (fun _ => rfl) _).symm
  | allCycles h => exact congrArg Reply.nodeHandles (g.allCycles_plain h)
  | reachable h flags => exact congrArg Reply.nodeHandles (g.reachable_plain h flags)
  | topologicalOrder h => exact congrArg Reply.nodeHandles (g.topologicalOrder_plain h)
  | _ => rfl

namespace Request

theorem answer_plain (r : Request) (g : Graph) :
    r.plain.answer g.plain = (r.answer g).map Reply.plain Graph.plain := by
  cases r with
  | change op =>
    simp only [plain, answer, Operation.apply_plain]
    rfl
  | ask q => exact Prod.ext (q.reply_plain g) rfl

theorem run_plain (rs : List Request) (g : Graph) :
    run (rs.map plain) g.plain = (run rs g).map (List.map Reply.plain) Graph.plain := by
  induction rs generalizing g with
  | nil => rfl
  | cons r rs ih =>
    simp only [List.map_cons, run, answer_plain, Prod.map, ih]

end Request

end Multidigraph
