import Multidigraph.Edge
import Multidigraph.Json.Value
import Multidigraph.Node
import Multidigraph.Walk.Basic

namespace Multidigraph

namespace Node

def fields : List String := ["id", "label", "out_edges", "in_edges", "categories", "graph"]

def json (n : Node) : Json :=
  .object <| fields.zip [
    .string n.id,
    .string n.label,
    .array (n.outEdges.map fun e => .nat e.slot),
    .array (n.inEdges.map fun e => .nat e.slot),
    .array (n.categories.map fun c => .string c.name),
    .string n.graph.uuid.text]

end Node

namespace Edge

def fields : List String :=
  ["id", "label", "weight", "relation_type", "source", "destination", "graph"]

def json (e : Edge) : Json :=
  .object <| fields.zip [
    .string e.id,
    .string e.label,
    .weight e.weight,
    .string e.relation.name,
    .nat e.source.slot,
    .nat e.destination.slot,
    .string e.graph.uuid.text]

end Edge

namespace Walk.Flags

def fields : List String := ["directed", "continue_on_error"]

def json (f : Walk.Flags) : Json :=
  .object <| fields.zip [.bool f.directed, .bool f.continueOnError]

end Walk.Flags

end Multidigraph
