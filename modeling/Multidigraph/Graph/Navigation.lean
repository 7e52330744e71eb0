import Multidigraph.Graph.Basic
import Multidigraph.Walk.Search

namespace Multidigraph.Graph

def navigation : Walk.Navigation Graph NodeHandle where
  contains := hasNode
  outgoing g h := (g.outEdges h).map fun e => (g.edge? e).map Edge.destination
  incoming g h := (g.inEdges h).map fun e => (g.edge? e).map Edge.source

def pushBound (g : Graph) : Nat :=
  g.nodeSlots.toList.foldl (fun k n => k + n.outEdges.length + n.inEdges.length) 1

/-- Each pushed node takes two steps at most, to enter it and to leave it. -/
def stepBound (g : Graph) : Nat := 2 * g.pushBound

variable (g : Graph) (h : NodeHandle)

def hasCycle : Bool := Walk.hasCycle navigation g.stepBound g h

def firstCycle? : Option NodeHandle := Walk.firstCycle? navigation g.stepBound g h

def allCycles : List NodeHandle := Walk.allCycles navigation g.stepBound g h

def reachable (flags : Walk.Flags) : List NodeHandle :=
  Walk.reachable navigation g.stepBound g h flags

def topologicalOrder : List NodeHandle := Walk.topologicalOrder navigation g.stepBound g h

end Multidigraph.Graph
