import Std.Data.ExtTreeSet
import Multidigraph.Iteration
import Multidigraph.Walk.Basic

namespace Multidigraph.Walk

namespace DepthFirst

inductive Frame (N : Type) where
  | pending (n : N)
  | entered (n : N)
  deriving DecidableEq

variable {σ N ε : Type} [Ord N] [Std.TransOrd N]

/-- `path` holds the nodes that are entered and not yet left. -/
structure State (σ N ε : Type) [Ord N] where
  world : σ
  stack : List (Frame N)
  visited : Std.ExtTreeSet N
  path : Std.ExtTreeSet N
  status : Status N ε
  warnings : Array (Warning N)
  stopped : Bool

def start (world : σ) (n : N) : State σ N ε :=
  ⟨world, [.pending n], ∅, ∅, {}, #[], false⟩

/-- Looks at one neighbour list of `n`, from its last position to its first: a node not visited is
pushed, so that the first ends on top, and one on the path closes a cycle. -/
def lookAt (side : Side) (n : N) (positions : List (Option N)) (s : State σ N ε) : State σ N ε :=
  let neighbours := resolved positions
  { s with
    stack := (neighbours.filter fun m => !s.visited.contains m).map .pending ++ s.stack
    status := s.status.addCycles <| neighbours.reverse.filter fun m =>
      s.visited.contains m && s.path.contains m
    warnings := s.warnings.appendList (drifts side n positions).reverse }

def expand (nav : Navigation σ N) (flags : Flags) (n : N) (s : State σ N ε) : State σ N ε :=
  let s := lookAt .outgoing n (nav.outgoing s.world n) s
  if flags.directed then s else lookAt .incoming n (nav.incoming s.world n) s

def enter (nav : Navigation σ N) (pre : Visitor σ N ε) (flags : Flags) (n : N)
    (below : List (Frame N)) : State σ N ε → State σ N ε
  | ⟨world, _, visited, path, status, warnings, _⟩ =>
    let (answer, world) := pre world n status
    let s := ⟨world, .entered n :: below, visited.insert n, path.insert n, status.note n answer,
      warnings, false⟩
    if flags.goesOn answer then expand nav flags n s else { s with stopped := true }

def leave (post : Visitor σ N ε) (flags : Flags) (n : N) (below : List (Frame N)) :
    State σ N ε → State σ N ε
  | ⟨world, _, visited, path, status, warnings, _⟩ =>
    let (answer, world) := post world n status
    ⟨world, below, visited, path.erase n, status.note n answer, warnings, !flags.goesOn answer⟩

/-- A node may have been pushed more than once before its visit; its other frames are dropped, and
so is the frame of a node that the world no longer contains. -/
def step (nav : Navigation σ N) (pre post : Visitor σ N ε) (flags : Flags) (s : State σ N ε) :
    Option (State σ N ε) :=
  if s.stopped then none else
  match s.stack with
  | [] => none
  | .entered n :: below => some (leave post flags n below s)
  | .pending n :: below =>
    if s.visited.contains n then some { s with stack := below }
    else if nav.contains s.world n then some (enter nav pre flags n below s)
    else some { s with stack := below, warnings := s.warnings.push (.left n) }

def State.finished (s : State σ N ε) : Bool := s.stopped || s.stack.isEmpty

end DepthFirst

variable {σ N ε : Type} [Ord N] [Std.TransOrd N]

/-- Walks depth first from `n`: `pre` visits a node before what it leads to, `post` after it. The
limit counts steps, for a visitor may add nodes without end. -/
def depthFirst (nav : Navigation σ N) (pre post : Visitor σ N ε) (flags : Flags) (limit : Nat)
    (world : σ) (n : N) : Report σ N ε :=
  let s := iterate (DepthFirst.step nav pre post flags) limit (DepthFirst.start world n)
  ⟨s.world, s.status, s.warnings, s.finished⟩

end Multidigraph.Walk
