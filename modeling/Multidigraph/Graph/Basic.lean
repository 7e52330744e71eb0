import Std.Data.ExtTreeMap
import Multidigraph.Arena
import Multidigraph.Node
import Multidigraph.Edge

namespace Multidigraph

/-- Finds handles by id. It is sorted, so listings come in id order. -/
abbrev Registry (H : Type) := Std.ExtTreeMap String H

structure Graph where
  id : GraphId
  nodeSlots : Arena Node
  edgeSlots : Arena Edge
  nodeIds : Registry NodeHandle
  edgeIds : Registry EdgeHandle

namespace Graph

def empty (id : GraphId) : Graph := ⟨id, .empty, .empty, ∅, ∅⟩

def node? (g : Graph) (h : NodeHandle) : Option Node := g.nodeSlots.get? h.slot

def edge? (g : Graph) (h : EdgeHandle) : Option Edge := g.edgeSlots.get? h.slot

def hasNode (g : Graph) (h : NodeHandle) : Bool := (g.node? h).isSome

def hasEdge (g : Graph) (h : EdgeHandle) : Bool := (g.edge? h).isSome

def nodeHandle? (g : Graph) (id : String) : Option NodeHandle := g.nodeIds[id]?

def edgeHandle? (g : Graph) (id : String) : Option EdgeHandle := g.edgeIds[id]?

def nodeOfId? (g : Graph) (id : String) : Option Node := (g.nodeHandle? id).bind g.node?

def edgeOfId? (g : Graph) (id : String) : Option Edge := (g.edgeHandle? id).bind g.edge?

def nodeCount (g : Graph) : Nat := g.nodeIds.size

def edgeCount (g : Graph) : Nat := g.edgeIds.size

def isEmpty (g : Graph) : Bool := g.nodeIds.isEmpty

def nodes (g : Graph) : List (NodeHandle × Node) :=
  g.nodeIds.toList.filterMap fun (_, h) => (g.node? h).map (h, ·)

def edges (g : Graph) : List (EdgeHandle × Edge) :=
  g.edgeIds.toList.filterMap fun (_, h) => (g.edge? h).map (h, ·)

def outEdges (g : Graph) (h : NodeHandle) : List EdgeHandle :=
  ((g.node? h).map Node.outEdges).getD []

def inEdges (g : Graph) (h : NodeHandle) : List EdgeHandle :=
  ((g.node? h).map Node.inEdges).getD []

def successors (g : Graph) (h : NodeHandle) : List NodeHandle :=
  (g.outEdges h).filterMap fun e => (g.edge? e).map Edge.destination

def predecessors (g : Graph) (h : NodeHandle) : List NodeHandle :=
  (g.inEdges h).filterMap fun e => (g.edge? e).map Edge.source

def edgesBetween (g : Graph) (source destination : NodeHandle) : List EdgeHandle :=
  (g.outEdges source).filter fun e => (g.edge? e).any (·.destination = destination)

end Graph

end Multidigraph
