import Std.Data.ExtTreeSet
import Multidigraph.Iteration
import Multidigraph.Walk.Basic

namespace Multidigraph.Walk

namespace BreadthFirst

variable {σ N ε : Type} [Ord N] [Std.TransOrd N]

structure State (σ N ε : Type) [Ord N] where
  world : σ
  queue : List N
  visited : Std.ExtTreeSet N
  status : Status N ε
  warnings : Array (Warning N)
  stopped : Bool

def start (world : σ) (n : N) : State σ N ε :=
  ⟨world, [n], ∅, {}, #[], false⟩

def lookAt (side : Side) (n : N) (positions : List (Option N)) (s : State σ N ε) : State σ N ε :=
  { s with
    queue := s.queue ++ resolved positions
    warnings := s.warnings.appendList (drifts side n positions) }

def expand (nav : Navigation σ N) (flags : Flags) (n : N) (s : State σ N ε) : State σ N ε :=
  let s := lookAt .outgoing n (nav.outgoing s.world n) s
  if flags.directed then s else lookAt .incoming n (nav.incoming s.world n) s

def enter (nav : Navigation σ N) (visit : Visitor σ N ε) (flags : Flags) (n : N)
    (behind : List N) : State σ N ε → State σ N ε
  | ⟨world, _, visited, status, warnings, _⟩ =>
    let (answer, world) := visit world n status
    let s := ⟨world, behind, visited.insert n, status.note n answer, warnings, false⟩
    if flags.goesOn answer then expand nav flags n s else { s with stopped := true }

/-- A node is visited when it comes out of the queue for the first time. A directed walk looks for
no cycles; an undirected one counts every further time that a visited node comes out. -/
def step (nav : Navigation σ N) (visit : Visitor σ N ε) (flags : Flags) (s : State σ N ε) :
    Option (State σ N ε) :=
  if s.stopped then none else
  match s.queue with
  | [] => none
  | n :: behind =>
    if s.visited.contains n then
      some { s with
        queue := behind
        status := if flags.directed then s.status else s.status.addCycles [n] }
    else if nav.contains s.world n then some (enter nav visit flags n behind s)
    else some { s with queue := behind, warnings := s.warnings.push (.left n) }

def State.finished (s : State σ N ε) : Bool := s.stopped || s.queue.isEmpty

end BreadthFirst

variable {σ N ε : Type} [Ord N] [Std.TransOrd N]

def breadthFirst (nav : Navigation σ N) (visit : Visitor σ N ε) (flags : Flags) (limit : Nat)
    (world : σ) (n : N) : Report σ N ε :=
  let s := iterate (BreadthFirst.step nav visit flags) limit (BreadthFirst.start world n)
  ⟨s.world, s.status, s.warnings, s.finished⟩

end Multidigraph.Walk
