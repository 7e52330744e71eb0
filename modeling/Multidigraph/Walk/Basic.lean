namespace Multidigraph.Walk

/-- How a walk reads a world. A neighbour list has one entry for each position of the node's edge
list; a position that leads to no node is `none`. -/
structure Navigation (σ N : Type) where
  contains : σ → N → Bool
  outgoing : σ → N → List (Option N)
  incoming : σ → N → List (Option N)

def Navigation.comap {τ σ N : Type} (f : τ → σ) (nav : Navigation σ N) : Navigation τ N :=
  ⟨nav.contains ∘ f, nav.outgoing ∘ f, nav.incoming ∘ f⟩

/-- An undirected walk follows the edges into a node as well as those out of it. -/
structure Flags where
  directed : Bool := true
  continueOnError : Bool := true
  deriving DecidableEq

inductive Answer (ε : Type) where
  | proceed
  | stop
  | fail (e : ε)

structure Failure (N ε : Type) where
  node : N
  error : ε

/-- The failures of visitors and the nodes at which cycles were found, each in order. A node is
listed once for each cycle found at it. -/
structure Status (N ε : Type) where
  failures : Array (Failure N ε) := #[]
  cycles : Array N := #[]

inductive Side where
  | outgoing
  | incoming
  deriving DecidableEq

inductive Warning (N : Type) where
  /-- A node whose turn had come was no longer there. -/
  | left (n : N)
  /-- A position of a neighbour list led nowhere. -/
  | drift (side : Side) (n : N) (position : Nat)
  deriving DecidableEq

abbrev Visitor (σ N ε : Type) := σ → N → Status N ε → Answer ε × σ

/-- What is known when a walk is over, or when its step limit is reached. -/
structure Report (σ N ε : Type) where
  world : σ
  status : Status N ε
  warnings : Array (Warning N)
  finished : Bool

variable {σ N ε : Type}

def Flags.goesOn (flags : Flags) : Answer ε → Bool
  | .proceed => true
  | .stop => false
  | .fail _ => flags.continueOnError

namespace Status

def hasFailures (s : Status N ε) : Bool := !s.failures.isEmpty

def hasCycles (s : Status N ε) : Bool := !s.cycles.isEmpty

def firstCycle? (s : Status N ε) : Option N := s.cycles[0]?

def note (s : Status N ε) (n : N) : Answer ε → Status N ε
  | .fail e => { s with failures := s.failures.push ⟨n, e⟩ }
  | _ => s

def addCycles (s : Status N ε) (ns : List N) : Status N ε :=
  { s with cycles := s.cycles.appendList ns }

end Status

def Failure.text (nodeText : N → String) (message : ε → String) (f : Failure N ε) : String :=
  nodeText f.node ++ ": " ++ message f.error

namespace Side

def text : Side → String
  | outgoing => "output"
  | incoming => "input"

end Side

namespace Warning

def text (nodeText : N → String) : Warning N → String
  | left n => "Node " ++ nodeText n ++ " left the graph during traversal, skipping"
  | drift side n position =>
    "Modification of graph during traversal of " ++ side.text ++ " edges: " ++ nodeText n ++
      " Index: " ++ toString position

end Warning

def resolved (positions : List (Option N)) : List N := positions.filterMap id

/-- A warning for each position that leads nowhere, in list order. -/
def drifts (side : Side) (n : N) (positions : List (Option N)) : List (Warning N) :=
  positions.zipIdx.filterMap fun (m?, i) => if m?.isNone then some (.drift side n i) else none

def pass : Visitor σ N ε := fun world _ _ => (.proceed, world)

end Multidigraph.Walk
