import Multidigraph.Graph.Basic
import Multidigraph.Json.Value

namespace Multidigraph

namespace NodeLink

def nodeJson (n : Node) : Json :=
  .object [
    ("categories", .array (n.categories.map fun c => .string c.name)),
    ("id", .string n.id),
    ("label", .string n.label)]

def endpointJson (g : Graph) (h : NodeHandle) : Json :=
  match g.node? h with
  | some n => .string n.id
  | none => .null

def edgeJson (g : Graph) (e : Edge) : Json :=
  .object [
    ("id", .string e.id),
    ("label", .string e.label),
    ("source", endpointJson g e.source),
    ("target", endpointJson g e.destination),
    ("type", .string e.relation.name),
    ("weight", .weight e.weight)]

/-- The nodes that are kept, and unless edges are left out the edges between kept nodes. -/
def document (g : Graph) (keep : Node → Bool) (withEdges : Bool) : Json :=
  let nodes := g.nodes.filter fun (_, n) => keep n
  let kept := Std.ExtTreeSet.ofList (nodes.map Prod.fst)
  let edges := if withEdges then
    g.edges.filter fun (_, e) => kept.contains e.source && kept.contains e.destination else []
  .object [
    ("links", .array (edges.map fun (_, e) => edgeJson g e)),
    ("nodes", .array (nodes.map fun (_, n) => nodeJson n))]

end NodeLink

namespace Graph

def nodeLinkOf (g : Graph) (keep : Node → Bool) (withEdges : Bool) : String :=
  (NodeLink.document g keep withEdges).pretty ""

def nodeLink (g : Graph) : String := g.nodeLinkOf (fun _ => true) true

end Graph

end Multidigraph
