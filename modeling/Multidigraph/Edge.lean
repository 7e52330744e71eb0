import Multidigraph.Handle
import Multidigraph.Relation
import Multidigraph.Uuid
import Multidigraph.Weight

namespace Multidigraph

structure Edge where
  id : String
  label : String
  weight : Weight
  relation : Relation
  source : NodeHandle
  destination : NodeHandle
  graph : GraphId

namespace Edge

def text (e : Edge) : String :=
  e.id ++ "(" ++ e.label ++ ")(" ++ e.source.text ++ " -> " ++ e.destination.text ++ ")"

inductive Edit where
  | relabel (label : String)
  | weigh (w : Weight)

def edit (e : Edge) : Edit → Edge
  | .relabel label => { e with label }
  | .weigh w => { e with weight := w }

def editAll (e : Edge) (edits : List Edit) : Edge := edits.foldl edit e

end Edge

end Multidigraph
