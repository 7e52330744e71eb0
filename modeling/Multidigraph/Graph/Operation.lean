import Multidigraph.Graph.Change

namespace Multidigraph

/-- Identifiers for new nodes and edges come with the operation, as the draws to choose from. -/
inductive Operation where
  | putNode (id label : String)
  | freshNode (label : String) (draws : List Uuid)
  | putEdge (relation : Relation) (id label : String) (source destination : NodeHandle)
  | freshEdge (relation : Relation) (label : String) (source destination : NodeHandle)
      (draws : List Uuid)
  | eraseNode (h : NodeHandle)
  | eraseEdge (h : EdgeHandle)
  | updateNode (h : NodeHandle) (e : Node.Edit)
  | updateEdge (h : EdgeHandle) (e : Edge.Edit)
  | editNode (h : NodeHandle) (edits : List Node.Edit)
  | editEdge (h : EdgeHandle) (edits : List Edge.Edit)
  | clear
  | clone (id : GraphId)

inductive Outcome where
  | done
  | nodeHandle (h : NodeHandle)
  | edgeHandle (h : EdgeHandle)
  | node (n : Node)
  | edge (e : Edge)
  /-- The handle names nothing, or no identifier was left to draw. -/
  | absent
  | failed (e : GraphError)

namespace Outcome

def ofExcept {α : Type} (f : α → Outcome) : Except GraphError α → Outcome
  | .ok a => f a
  | .error e => failed e

def ofOption {α : Type} (f : α → Outcome) : Option α → Outcome
  | some a => f a
  | none => absent

end Outcome

namespace Operation

def answer {α : Type} (f : α → Outcome) : Graph.Changed α → Outcome × Graph
  | (a, g) => (f a, g)

def apply (op : Operation) (g : Graph) : Outcome × Graph :=
  match op with
  | putNode id label => answer .nodeHandle (g.putNode id label)
  | freshNode label draws => answer (.ofOption .nodeHandle) (g.freshNode label draws)
  | putEdge relation id label s d =>
    answer (.ofExcept .edgeHandle) (g.putEdge relation id label s d)
  | freshEdge relation label s d draws =>
    answer (.ofExcept (.ofOption .edgeHandle)) (g.freshEdge relation label s d draws)
  | eraseNode h => answer (.ofExcept .node) (g.eraseNode h)
  | eraseEdge h => answer (.ofExcept .edge) (g.eraseEdge h)
  | updateNode h e => answer (.ofExcept fun _ => .done) (g.updateNode h e)
  | updateEdge h e => answer (.ofExcept fun _ => .done) (g.updateEdge h e)
  | editNode h edits => answer (.ofOption .node) (g.editNode h edits)
  | editEdge h edits => answer (.ofOption .edge) (g.editEdge h edits)
  | clear => (.done, g.clear)
  | clone id => (.done, g.clone id)

/-- Applies operations in turn; an error is the answer of its operation and stops nothing. -/
def run : List Operation → Graph → List Outcome × Graph
  | [], g => ([], g)
  | op :: ops, g =>
    let (outcome, g) := op.apply g
    let (outcomes, g) := run ops g
    (outcome :: outcomes, g)

end Operation

end Multidigraph
