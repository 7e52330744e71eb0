import Multidigraph.Handle
import Multidigraph.Category
import Multidigraph.Uuid

namespace Multidigraph

structure Node where
  id : String
  label : String
  outEdges : List EdgeHandle
  inEdges : List EdgeHandle
  categories : List Category
  graph : GraphId
  deriving DecidableEq

namespace Node

def isolated (graph : GraphId) (id label : String) : Node :=
  ⟨id, label, [], [], [], graph⟩

def hasCategory (n : Node) (c : Category) : Bool := n.categories.contains c

def text (n : Node) : String := n.id ++ "(" ++ n.label ++ ")"

inductive Edit where
  | relabel (label : String)
  | addCategory (c : Category)
  | removeCategory (c : Category)

/-- A category that the node already has is not added again. -/
def edit (n : Node) : Edit → Node
  | .relabel label => { n with label }
  | .addCategory c => if n.hasCategory c then n else { n with categories := n.categories ++ [c] }
  | .removeCategory c => { n with categories := n.categories.filter (· != c) }

def editAll (n : Node) (edits : List Edit) : Node := edits.foldl edit n

def linkOut (n : Node) (e : EdgeHandle) : Node := { n with outEdges := n.outEdges ++ [e] }

def linkIn (n : Node) (e : EdgeHandle) : Node := { n with inEdges := n.inEdges ++ [e] }

def unlinkOut (n : Node) (e : EdgeHandle) : Node :=
  { n with outEdges := n.outEdges.filter (· != e) }

def unlinkIn (n : Node) (e : EdgeHandle) : Node :=
  { n with inEdges := n.inEdges.filter (· != e) }

end Node

end Multidigraph
