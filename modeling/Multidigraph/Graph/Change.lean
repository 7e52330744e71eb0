import Multidigraph.Error
import Multidigraph.Graph.Basic

namespace Multidigraph.Graph

abbrev Changed (α : Type) := α × Graph

def modifyNode (g : Graph) (h : NodeHandle) (f : Node → Node) : Graph :=
  { g with nodeSlots := g.nodeSlots.modify h.slot f }

def modifyEdge (g : Graph) (h : EdgeHandle) (f : Edge → Edge) : Graph :=
  { g with edgeSlots := g.edgeSlots.modify h.slot f }

/-- Appends a node; its id must not be in use. -/
def insertNode (g : Graph) (id label : String) : Changed NodeHandle :=
  let h : NodeHandle := ⟨g.nodeSlots.size⟩
  (h, { g with
    nodeSlots := g.nodeSlots.push (.isolated g.id id label)
    nodeIds := g.nodeIds.insert id h })

def insertEdge (g : Graph) (relation : Relation) (id label : String)
    (source destination : NodeHandle) : Changed EdgeHandle :=
  let h : EdgeHandle := ⟨g.edgeSlots.size⟩
  let edge : Edge := ⟨id, label, .one, relation, source, destination, g.id⟩
  let g := { g with edgeSlots := g.edgeSlots.push edge, edgeIds := g.edgeIds.insert id h }
  (h, (g.modifyNode source (·.linkOut h)).modifyNode destination (·.linkIn h))

def putNode (g : Graph) (id label : String) : Changed NodeHandle :=
  match g.nodeHandle? id with
  | some h => (h, g.modifyNode h (·.edit (.relabel label)))
  | none => g.insertNode id label

def checkEndpoints (g : Graph) (source destination : NodeHandle) : Except GraphError Unit :=
  if !g.hasNode source then .error (.invalidArgument (.sourceAbsent source))
  else if !g.hasNode destination then .error (.invalidArgument (.destinationAbsent destination))
  else .ok ()

/-- Adds an edge, or relabels the one that has the id. The latter keeps its endpoints, and it must
have the relation that is asked for. -/
def putEdge (g : Graph) (relation : Relation) (id label : String)
    (source destination : NodeHandle) : Changed (Except GraphError EdgeHandle) :=
  match g.checkEndpoints source destination with
  | .error e => (.error e, g)
  | .ok () =>
    match g.edgeHandle? id with
    | none =>
      let (h, g) := g.insertEdge relation id label source destination
      (.ok h, g)
    | some h =>
      match g.edge? h with
      | none => (.error (.edgeNotFound id), g)
      | some edge =>
        if edge.relation == relation then (.ok h, g.modifyEdge h (·.edit (.relabel label)))
        else
          (.error (.invalidArgument (.relationClash id edge.relation.name relation.name)), g)

def firstUnused {H : Type} (registry : Registry H) (draws : List Uuid) : Option String :=
  (draws.map Uuid.text).find? fun id => !registry.contains id

/-- Adds a node under the first unused draw; no node if all draws are in use. -/
def freshNode (g : Graph) (label : String) (draws : List Uuid) : Changed (Option NodeHandle) :=
  match firstUnused g.nodeIds draws with
  | none => (none, g)
  | some id =>
    let (h, g) := g.insertNode id label
    (some h, g)

def freshEdge (g : Graph) (relation : Relation) (label : String)
    (source destination : NodeHandle) (draws : List Uuid) :
    Changed (Except GraphError (Option EdgeHandle)) :=
  match g.checkEndpoints source destination with
  | .error e => (.error e, g)
  | .ok () =>
    match firstUnused g.edgeIds draws with
    | none => (.ok none, g)
    | some id =>
      let (h, g) := g.insertEdge relation id label source destination
      (.ok (some h), g)

def eraseEdge (g : Graph) (h : EdgeHandle) : Changed (Except GraphError Edge) :=
  match g.edge? h with
  | none => (.error (.edgeNotFound h.text), g)
  | some edge =>
    let g := { g with edgeSlots := g.edgeSlots.free h.slot, edgeIds := g.edgeIds.erase edge.id }
    (.ok edge,
      (g.modifyNode edge.source (·.unlinkOut h)).modifyNode edge.destination (·.unlinkIn h))

def eraseEdges (g : Graph) : List EdgeHandle → Changed (Except GraphError Unit)
  | [] => (.ok (), g)
  | h :: hs =>
    match g.eraseEdge h with
    | (.ok _, g) => g.eraseEdges hs
    | (.error e, g) => (.error e, g)

/-- The edges at a node, each once, though a loop is in both of its lists. -/
def incidentEdges (n : Node) : List EdgeHandle := (n.inEdges ++ n.outEdges).eraseDups

def eraseNode (g : Graph) (h : NodeHandle) : Changed (Except GraphError Node) :=
  match g.node? h with
  | none => (.error (.nodeNotFound h.text), g)
  | some before =>
    match g.eraseEdges (incidentEdges before) with
    | (.error e, g) => (.error e, g)
    | (.ok (), g) =>
      match g.node? h with
      | none => (.error (.nodeNotFound h.text), g)
      | some node =>
        (.ok node,
          { g with nodeSlots := g.nodeSlots.free h.slot, nodeIds := g.nodeIds.erase node.id })

def editNode (g : Graph) (h : NodeHandle) (edits : List Node.Edit) : Changed (Option Node) :=
  let g := g.modifyNode h (·.editAll edits)
  (g.node? h, g)

def editEdge (g : Graph) (h : EdgeHandle) (edits : List Edge.Edit) : Changed (Option Edge) :=
  let g := g.modifyEdge h (·.editAll edits)
  (g.edge? h, g)

def updateNode (g : Graph) (h : NodeHandle) (e : Node.Edit) : Changed (Except GraphError Unit) :=
  if g.hasNode h then (.ok (), g.modifyNode h (·.edit e))
  else (.error (.nodeNotFound h.text), g)

def updateEdge (g : Graph) (h : EdgeHandle) (e : Edge.Edit) : Changed (Except GraphError Unit) :=
  if g.hasEdge h then (.ok (), g.modifyEdge h (·.edit e))
  else (.error (.edgeNotFound h.text), g)

/-- Empties the graph. Its slots stay used, so handles given out before name nothing. -/
def clear (g : Graph) : Graph :=
  { g with
    nodeSlots := g.nodeSlots.clear
    edgeSlots := g.edgeSlots.clear
    nodeIds := ∅
    edgeIds := ∅ }

/-- A copy under an identity of its own, which all its nodes and edges carry. Handles are kept. -/
def clone (g : Graph) (id : GraphId) : Graph :=
  { g with
    id
    nodeSlots := g.nodeSlots.map ({ · with graph := id })
    edgeSlots := g.edgeSlots.map ({ · with graph := id }) }

end Multidigraph.Graph
