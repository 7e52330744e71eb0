import Multidigraph.Export.Dot
import Multidigraph.Export.NodeLink
import Multidigraph.Graph.Navigation
import Multidigraph.Graph.Operation
import Multidigraph.Query
import Multidigraph.Record.Write

namespace Multidigraph

inductive Question where
  | nodeHandle (id : String)
  | edgeHandle (id : String)
  | node (h : NodeHandle)
  | edge (h : EdgeHandle)
  | nodeOfId (id : String)
  | edgeOfId (id : String)
  | hasNode (h : NodeHandle)
  | hasEdge (h : EdgeHandle)
  | outEdges (h : NodeHandle)
  | inEdges (h : NodeHandle)
  | successors (h : NodeHandle)
  | predecessors (h : NodeHandle)
  | edgesBetween (source destination : NodeHandle)
  | nodes
  | edges
  | nodeCount
  | edgeCount
  | isEmpty
  | query (q : Query)
  | queryCount (q : Query)
  | queryAny (q : Query)
  | findNodes (text : String)
  | dot (style : Dot.Style)
  | nodeLink (keep : Node → Bool) (withEdges : Bool)
  | nodeJson (h : NodeHandle)
  | edgeJson (h : EdgeHandle)
  | hasCycle (h : NodeHandle)
  | firstCycle (h : NodeHandle)
  | allCycles (h : NodeHandle)
  | reachable (h : NodeHandle) (flags : Walk.Flags)
  | topologicalOrder (h : NodeHandle)

inductive Reply where
  | outcome (o : Outcome)
  | flag (b : Bool)
  | number (n : Nat)
  | text (s : String)
  | nodeHandles (hs : List NodeHandle)
  | edgeHandles (hs : List EdgeHandle)
  | nodes (ns : List (NodeHandle × Node))
  | edges (es : List (EdgeHandle × Edge))

namespace Reply

def ofOption {α : Type} (f : α → Outcome) (a? : Option α) : Reply := outcome (.ofOption f a?)

def ofText? : Option String → Reply
  | some s => text s
  | none => outcome .absent

end Reply

namespace Question

def reply (g : Graph) : Question → Reply
  | nodeHandle id => .ofOption .nodeHandle (g.nodeHandle? id)
  | edgeHandle id => .ofOption .edgeHandle (g.edgeHandle? id)
  | node h => .ofOption .node (g.node? h)
  | edge h => .ofOption .edge (g.edge? h)
  | nodeOfId id => .ofOption .node (g.nodeOfId? id)
  | edgeOfId id => .ofOption .edge (g.edgeOfId? id)
  | hasNode h => .flag (g.hasNode h)
  | hasEdge h => .flag (g.hasEdge h)
  | outEdges h => .edgeHandles (g.outEdges h)
  | inEdges h => .edgeHandles (g.inEdges h)
  | successors h => .nodeHandles (g.successors h)
  | predecessors h => .nodeHandles (g.predecessors h)
  | edgesBetween source destination => .edgeHandles (g.edgesBetween source destination)
  | nodes => .nodes g.nodes
  | edges => .edges g.edges
  | nodeCount => .number g.nodeCount
  | edgeCount => .number g.edgeCount
  | isEmpty => .flag g.isEmpty
  | query q => .nodeHandles (q.run g)
  | queryCount q => .number (q.count g)
  | queryAny q => .flag (q.any g)
  | findNodes text => .nodeHandles (g.findNodes text)
  | dot style => .text (g.dotStyled style)
  | nodeLink keep withEdges => .text (g.nodeLinkOf keep withEdges)
  | nodeJson h => .ofText? ((g.node? h).map fun n => n.json.compact)
  | edgeJson h => .ofText? ((g.edge? h).map fun e => e.json.compact)
  | hasCycle h => .flag (g.hasCycle h)
  | firstCycle h => .ofOption .nodeHandle (g.firstCycle? h)
  | allCycles h => .nodeHandles (g.allCycles h)
  | reachable h flags => .nodeHandles (g.reachable h flags)
  | topologicalOrder h => .nodeHandles (g.topologicalOrder h)

end Question

inductive Request where
  | change (op : Operation)
  | ask (q : Question)

namespace Request

def answer (g : Graph) : Request → Reply × Graph
  | change op =>
    let (o, g) := op.apply g
    (.outcome o, g)
  | ask q => (q.reply g, g)

def run : List Request → Graph → List Reply × Graph
  | [], g => ([], g)
  | r :: rs, g =>
    let (reply, g) := r.answer g
    let (replies, g) := run rs g
    (reply :: replies, g)

end Request

end Multidigraph
