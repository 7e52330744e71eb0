import Multidigraph.Walk.DepthFirst

namespace Multidigraph.Walk

variable {σ N : Type} [Ord N] [Std.TransOrd N]

def untilCycle : Visitor σ N Empty := fun world _ status =>
  (if status.hasCycles then .stop else .proceed, world)

def collect : Visitor (σ × Array N) N Empty := fun (world, ns) n _ =>
  (.proceed, (world, ns.push n))

variable (nav : Navigation σ N) (limit : Nat) (world : σ) (n : N)

def hasCycle : Bool := (depthFirst nav untilCycle pass {} limit world n).status.hasCycles

def firstCycle? : Option N := (depthFirst nav untilCycle pass {} limit world n).status.firstCycle?

/-- The nodes at which cycles are found, once for each edge that closes one. -/
def allCycles : List N :=
  (depthFirst nav (pass (ε := Empty)) pass {} limit world n).status.cycles.toList

def reachable (flags : Flags) : List N :=
  (depthFirst (nav.comap Prod.fst) collect pass flags limit (world, #[]) n).world.2.toList

/-- The nodes that can be reached from `n`, each after what it leads to if there is no cycle. -/
def topologicalOrder : List N :=
  (depthFirst (nav.comap Prod.fst) pass collect {} limit (world, #[]) n).world.2.toList

end Multidigraph.Walk
