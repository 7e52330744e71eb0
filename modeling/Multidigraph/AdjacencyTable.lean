import Multidigraph.Walk.Search

namespace Multidigraph

/-- A row holds the neighbours of the node of its number; each row claims `surplus` positions more
than it holds. -/
structure AdjacencyTable where
  outRows : Array (List (Option Nat))
  inRows : Array (List (Option Nat))
  surplus : Nat
  absent : List Nat

namespace AdjacencyTable

def row (t : AdjacencyTable) (rows : Array (List (Option Nat))) (n : Nat) : List (Option Nat) :=
  match rows[n]? with
  | some ns => ns ++ List.replicate t.surplus none
  | none => []

def navigation : Walk.Navigation AdjacencyTable Nat where
  contains t n := n < t.outRows.size && !t.absent.contains n
  outgoing t n := t.row t.outRows n
  incoming t n := t.row t.inRows n

def setOut (t : AdjacencyTable) (n : Nat) (ns : List (Option Nat)) : AdjacencyTable :=
  { t with outRows := t.outRows.setIfInBounds n ns }

def setIn (t : AdjacencyTable) (n : Nat) (ns : List (Option Nat)) : AdjacencyTable :=
  { t with inRows := t.inRows.setIfInBounds n ns }

def drop (t : AdjacencyTable) (n : Nat) : AdjacencyTable := { t with absent := t.absent ++ [n] }

def stepBound (t : AdjacencyTable) : Nat :=
  2 * (t.outRows ++ t.inRows).toList.foldl (fun k ns => k + ns.length) 1

variable (t : AdjacencyTable) (n : Nat)

def hasCycle : Bool := Walk.hasCycle navigation t.stepBound t n

def firstCycle? : Option Nat := Walk.firstCycle? navigation t.stepBound t n

def allCycles : List Nat := Walk.allCycles navigation t.stepBound t n

def reachable (flags : Walk.Flags) : List Nat := Walk.reachable navigation t.stepBound t n flags

def topologicalOrder : List Nat := Walk.topologicalOrder navigation t.stepBound t n

end AdjacencyTable

end Multidigraph
