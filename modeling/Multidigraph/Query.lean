import Multidigraph.Graph.Basic
import Multidigraph.Query.LabelPattern
import Multidigraph.Text.Lower

namespace Multidigraph

inductive Filter where
  /-- Both texts are taken in lower case. -/
  | labelContains (text : String)
  | labelIs (label : String)
  | labelMatches (pattern : String)
  | idStartsWith (text : String)
  | inCategory (c : Category)
  | minOutDegree (n : Nat)
  | minInDegree (n : Nat)
  | hasOutRelation (r : Relation)
  | satisfies (p : Node → Bool)

namespace Filter

def passes (g : Graph) (n : Node) : Filter → Bool
  | labelContains text => Text.occursIn (Text.lower text).toList (Text.lower n.label).toList
  | labelIs label => n.label = label
  | labelMatches pattern => (LabelPattern.ofChars pattern.toList).accepts n.label.toList
  | idStartsWith text => text.toList.isPrefixOf n.id.toList
  | inCategory c => n.hasCategory c
  | minOutDegree k => k ≤ n.outEdges.length
  | minInDegree k => k ≤ n.inEdges.length
  | hasOutRelation r => n.outEdges.any fun e => (g.edge? e).any (·.relation == r)
  | satisfies p => p n

end Filter

structure Query where
  filters : List Filter := []
  limit? : Option Nat := none

namespace Query

def add (q : Query) (f : Filter) : Query := { q with filters := q.filters ++ [f] }

/-- The limit set last is the one that holds. -/
def upTo (q : Query) (n : Nat) : Query := { q with limit? := some n }

def accepts (q : Query) (g : Graph) (n : Node) : Bool := q.filters.all (·.passes g n)

def hits (q : Query) (g : Graph) : List NodeHandle :=
  (g.nodes.filter fun (_, n) => q.accepts g n).map Prod.fst

def run (q : Query) (g : Graph) : List NodeHandle :=
  match q.limit? with
  | some n => (q.hits g).take n
  | none => q.hits g

def count (q : Query) (g : Graph) : Nat := (q.hits g).length

def any (q : Query) (g : Graph) : Bool := g.nodes.any fun (_, n) => q.accepts g n

end Query

namespace Graph

def findNodes (g : Graph) (text : String) : List NodeHandle :=
  ({ filters := [.labelContains text] } : Query).run g

end Graph

end Multidigraph
