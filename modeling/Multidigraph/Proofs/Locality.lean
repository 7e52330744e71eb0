import Multidigraph.Proofs.Alike
import Multidigraph.Proofs.Elsewhere

open Relation

namespace Multidigraph

namespace Walk

variable {σ κ N ε : Type}

/-- A visitor that has a world of its own, and never looks at the one in which the walk goes. -/
def Visitor.apart (visit : Visitor κ N ε) : Visitor (σ × κ) N ε :=
  fun (world, k) n status => ((visit k n status).1, world, (visit k n status).2)

theorem Visitor.apart_projects (visit : Visitor κ N ε) :
    (visit.apart : Visitor (σ × κ) N ε).Projects Prod.snd visit := fun _ _ _ => rfl

theorem Visitor.apart_keeps (visit : Visitor κ N ε) (nav : Navigation σ N) (v : View N) :
    visit.apart.Keeps (nav.comap Prod.fst) v := fun _ _ _ h => h

def View.navigation (v : View N) : Navigation κ N :=
  ⟨fun _ => v.contains, fun _ => v.outgoing, fun _ => v.incoming⟩

theorem View.alike_refl (flags : Flags) (v : View N) :
    View.Alike flags (fun _ => true) (fun _ => True) v v where
  contains _ _ := rfl
  resolved _ _ _ _ := rfl
  drifts _ _ _ _ := (List.filter_true _).symm
  closed _ _ _ _ _ _ := trivial

theorem Report.keeping_true (r : Report σ N ε) : r.keeping (fun _ => true) = r := by
  have hall : r.warnings.filter (fun _ => true) = r.warnings :=
    Array.filter_eq_self.mpr fun _ _ => rfl
  rw [keeping, hall]

section Views

variable [Ord N] [Std.TransOrd N] {nav : Navigation σ N} {world world' : σ} {flags : Flags}
  {region : N → Prop} {start : N}

omit [Ord N] [Std.TransOrd N] in
theorem alike_navigation (flags : Flags) (world : σ) (w : σ × κ) (hw : w.1 = world) :
    View.Alike flags (fun _ => true) (fun _ => True) ((nav.comap Prod.fst).view w)
      (((nav.view world).navigation.comap Prod.snd).view w) := by
  subst hw
  exact View.alike_refl flags _

theorem depthFirst_apart (nav : Navigation σ N) (pre post : Visitor κ N ε) (flags : Flags)
    (limit : Nat) (world : σ) (k : κ) (start : N) :
    (depthFirst (nav.comap Prod.fst) pre.apart post.apart flags limit (world, k) start).mapWorld
        Prod.snd =
      depthFirst (nav.view world).navigation pre post flags limit k start := by
  have hsame : depthFirst ((nav.view world).navigation.comap Prod.snd) pre.apart post.apart flags
      limit (world, k) start = _ :=
    depthFirst_alike (fun _ => rfl) (alike_navigation flags world) (fun _ _ _ h => h)
      (fun _ _ _ h => h) rfl trivial limit
  rw [Report.keeping_true] at hsame
  rw [← hsame]
  exact (depthFirst_mapWorld pre.apart_projects post.apart_projects flags limit (world, k)
    start).symm

theorem breadthFirst_apart (nav : Navigation σ N) (visit : Visitor κ N ε) (flags : Flags)
    (limit : Nat) (world : σ) (k : κ) (start : N) :
    (breadthFirst (nav.comap Prod.fst) visit.apart flags limit (world, k) start).mapWorld
        Prod.snd =
      breadthFirst (nav.view world).navigation visit flags limit k start := by
  have hsame : breadthFirst ((nav.view world).navigation.comap Prod.snd) visit.apart flags limit
      (world, k) start = _ :=
    breadthFirst_alike (fun _ => rfl) (alike_navigation flags world) (fun _ _ _ h => h) rfl trivial
      limit
  rw [Report.keeping_true] at hsame
  rw [← hsame]
  exact (breadthFirst_mapWorld visit.apart_projects flags limit (world, k) start).symm

theorem depthFirst_local
    (halike : View.Alike flags (fun _ => true) region (nav.view world) (nav.view world'))
    (hstart : region start) (pre post : Visitor κ N ε) (limit : Nat) (k : κ) :
    (depthFirst (nav.comap Prod.fst) pre.apart post.apart flags limit (world', k) start).mapWorld
        Prod.snd =
      (depthFirst (nav.comap Prod.fst) pre.apart post.apart flags limit (world, k) start).mapWorld
        Prod.snd := by
  rw [depthFirst_apart, depthFirst_apart, ← Report.keeping_true (depthFirst
    (nav.view world).navigation pre post flags limit k start)]
  exact depthFirst_alike (fun _ => rfl) (fun _ (_ : True) => halike) (fun _ _ _ h => h)
    (fun _ _ _ h => h) trivial hstart limit

theorem breadthFirst_local
    (halike : View.Alike flags (fun _ => true) region (nav.view world) (nav.view world'))
    (hstart : region start) (visit : Visitor κ N ε) (limit : Nat) (k : κ) :
    (breadthFirst (nav.comap Prod.fst) visit.apart flags limit (world', k) start).mapWorld
        Prod.snd =
      (breadthFirst (nav.comap Prod.fst) visit.apart flags limit (world, k) start).mapWorld
        Prod.snd := by
  rw [breadthFirst_apart, breadthFirst_apart, ← Report.keeping_true (breadthFirst
    (nav.view world).navigation visit flags limit k start)]
  exact breadthFirst_alike (fun _ => rfl) (fun _ (_ : True) => halike) (fun _ _ _ h => h) trivial
    hstart limit

end Views

end Walk

namespace Graph

open Walk

variable {g g' : Graph} {start : NodeHandle} {flags : Flags} {κ ε : Type}

/-- Directed walks see no more of a graph than what can be reached. -/
theorem SamePart.alike (h : SamePart start g g') (hg : g.WellFormed) (hg' : g'.WellFormed)
    (hstart : g.hasNode start = true) (hflags : flags.directed = true) :
    View.Alike flags (fun _ => true) (ReflTransGen g.Adj start) (navigation.view g)
      (navigation.view g') := by
  have hout : ∀ side, flags.follows side = true → side = .outgoing := by
    intro side hside
    cases side with
    | outgoing => rfl
    | incoming => simp [Flags.follows, hflags] at hside
  constructor
  case contains =>
    intro a ha
    exact (h.node a ha).trans (hasNode_of_reflTransGen hg hstart ha).symm
  case resolved =>
    intro side a hside ha
    rw [hout side hside]
    exact congrArg resolved (h.outgoing hg hg' ha)
  case drifts =>
    intro side a hside ha
    rw [hout side hside, List.filter_true]
    exact congrArg (drifts .outgoing a) (h.outgoing hg hg' ha)
  case closed =>
    intro side a hside ha b hb
    rw [hout side hside] at hb
    have hsuccessor : b ∈ g.successors a := by
      rw [← resolved_outgoing]
      exact hb
    exact ha.tail (hg.mem_successors_iff.mp hsuccessor)

theorem depthFirst_stepBound (g : Graph) (pre post : Visitor κ NodeHandle ε) (flags : Flags) (k : κ)
    (start : NodeHandle) {limit : Nat} (hlimit : g.stepBound ≤ limit) :
    depthFirst (navigation.comap Prod.fst) pre.apart post.apart flags limit (g, k) start =
      depthFirst (navigation.comap Prod.fst) pre.apart post.apart flags g.stepBound (g, k)
        start := by
  obtain ⟨left, q, -, hruns⟩ := depthFirst_explores (navigation.comap Prod.fst) (g, k)
    (pre.apart_keeps navigation _) (post.apart_keeps navigation _)
    (fun _ => mem_handles_of_hasNode (g := g)) flags start
  have hpushes := g.pushes_le_stepBound flags
  rw [hruns _ (Nat.le_trans hpushes hlimit), hruns _ hpushes]

theorem SamePart.depthFirst_eq (h : SamePart start g g') (hg : g.WellFormed) (hg' : g'.WellFormed)
    (hstart : g.hasNode start = true) (hflags : flags.directed = true)
    (pre post : Visitor κ NodeHandle ε) (k : κ) :
    (depthFirst (navigation.comap Prod.fst) pre.apart post.apart flags g'.stepBound (g', k)
        start).mapWorld Prod.snd =
      (depthFirst (navigation.comap Prod.fst) pre.apart post.apart flags g.stepBound (g, k)
        start).mapWorld Prod.snd := by
  have hlocal := depthFirst_local (h.alike hg hg' hstart hflags) .refl pre post
    (max g.stepBound g'.stepBound) k
  rwa [g.depthFirst_stepBound pre post flags k start (Nat.le_max_left _ _),
    g'.depthFirst_stepBound pre post flags k start (Nat.le_max_right _ _)] at hlocal

section Searches

def noting : Visitor (Array NodeHandle) NodeHandle Empty := fun ns n _ => (.proceed, ns.push n)

variable (g : Graph) (h : NodeHandle)

theorem hasCycle_apart :
    g.hasCycle h = ((depthFirst (navigation.comap Prod.fst) (Visitor.apart untilCycle)
      (Visitor.apart pass) {} g.stepBound (g, ()) h).mapWorld Prod.snd).status.hasCycles :=
  hasCycle_comap Prod.fst navigation g.stepBound (g, ()) h

theorem firstCycle?_apart :
    g.firstCycle? h = ((depthFirst (navigation.comap Prod.fst) (Visitor.apart untilCycle)
      (Visitor.apart pass) {} g.stepBound (g, ()) h).mapWorld Prod.snd).status.firstCycle? :=
  firstCycle?_comap Prod.fst navigation g.stepBound (g, ()) h

theorem allCycles_apart :
    g.allCycles h = ((depthFirst (navigation.comap Prod.fst)
      (Visitor.apart (pass : Visitor Unit NodeHandle Empty)) (Visitor.apart pass) {} g.stepBound
      (g, ()) h).mapWorld Prod.snd).status.cycles.toList :=
  allCycles_comap Prod.fst navigation g.stepBound (g, ()) h

theorem reachable_apart (flags : Flags) :
    g.reachable h flags = ((depthFirst (navigation.comap Prod.fst) noting.apart
      (Visitor.apart pass) flags g.stepBound (g, #[]) h).mapWorld Prod.snd).world.toList := rfl

theorem topologicalOrder_apart :
    g.topologicalOrder h = ((depthFirst (navigation.comap Prod.fst) (Visitor.apart pass)
      noting.apart {} g.stepBound (g, #[]) h).mapWorld Prod.snd).world.toList := rfl

end Searches

/-- What searches and walks along the edges find depends only on what can be reached from their
start. They find the same after any operations none of which takes a node away that can be reached,
or makes or takes away an edge out of one: so it is with operations that touch only what cannot be
reached, or that redraw nodes and edges in place. Visitors may do as they please, as long as they do
not look at the rest of the graph. -/
theorem searches_local (κ ε : Type) (id : GraphId) (history later : List Operation)
    (start : NodeHandle) (hstart : (ofHistory id history).hasNode start = true)
    (hlater : Throughout (fun earlier op =>
      op.LeavesAlone start (Operation.run earlier (ofHistory id history)).2) later) :
    let g := ofHistory id history
    let g' := (Operation.run later g).2
    (g'.hasCycle start = g.hasCycle start ∧ g'.firstCycle? start = g.firstCycle? start ∧
      g'.allCycles start = g.allCycles start ∧
      g'.topologicalOrder start = g.topologicalOrder start) ∧
    (∀ flags : Flags, flags.directed = true →
      g'.reachable start flags = g.reachable start flags ∧
      ∀ (visit : Visitor κ NodeHandle ε) (k : κ) (limit : Nat),
        let walk := fun g : Graph => breadthFirst (navigation.comap Prod.fst)
          (visit.logged .first).apart flags limit (g, k, #[]) start
        (walk g').mapWorld Prod.snd = (walk g).mapWorld Prod.snd) ∧
    (∀ m, ReflTransGen g'.Adj start m ↔ ReflTransGen g.Adj start m) ∧
    ∀ op : Operation, op.Outside start g' → op.LeavesAlone start g' := by
  intro g g'
  have hg : g.WellFormed := ofHistory_wellFormed id history
  have hg' : g'.WellFormed := Operation.run_wellFormed hg later
  have hpart : SamePart start g g' := Operation.samePart_run hg hstart hlater
  have hdirected : ({} : Flags).directed = true := rfl
  have hcycle := hpart.depthFirst_eq hg hg' hstart hdirected untilCycle pass ()
  have hcycles := hpart.depthFirst_eq hg hg' hstart hdirected
    (pass : Visitor Unit NodeHandle Empty) pass ()
  have horder := hpart.depthFirst_eq hg hg' hstart hdirected pass noting #[]
  refine ⟨⟨?_, ?_, ?_, ?_⟩, fun flags hflags => ⟨?_, fun visit k limit => ?_⟩,
    fun m => hpart.reached_iff, fun op hop => ?_⟩
  · rw [hasCycle_apart, hasCycle_apart, hcycle]
  · rw [firstCycle?_apart, firstCycle?_apart, hcycle]
  · rw [allCycles_apart, allCycles_apart, hcycles]
  · rw [topologicalOrder_apart, topologicalOrder_apart, horder]
  · rw [reachable_apart, reachable_apart, hpart.depthFirst_eq hg hg' hstart hflags]
  · exact breadthFirst_local (hpart.alike hg hg' hstart hflags) .refl (visit.logged .first) limit
      (k, #[])
  · exact hop.leavesAlone hg' (hpart.node start .refl)

/-- Two nodes lead to each other; a third leads to both, and a fourth is led to by none. Meanwhile
an edge into the two nodes is added, another goes with its node, and one of the two is
relabelled. -/
theorem searches_local_outskirts :
    let history : List Operation := [.putNode "a" "", .putNode "b" "", .putNode "c" "",
      .putNode "d" "", .putEdge .default "ab" "" ⟨0⟩ ⟨1⟩, .putEdge .default "ba" "" ⟨1⟩ ⟨0⟩,
      .putEdge .default "ca" "" ⟨2⟩ ⟨0⟩, .putEdge .default "db" "" ⟨3⟩ ⟨1⟩]
    let later : List Operation := [.putEdge .default "cb" "" ⟨2⟩ ⟨1⟩, .putNode "b" "relabelled",
      .eraseNode ⟨3⟩]
    let g := ofHistory ⟨⟨0⟩⟩ history
    let g' := (Operation.run later g).2
    g.hasNode ⟨0⟩ = true ∧
      Throughout (fun earlier op => op.LeavesAlone ⟨0⟩ (Operation.run earlier g).2) later ∧
      g'.allCycles ⟨0⟩ = g.allCycles ⟨0⟩ ∧ g'.allCycles ⟨0⟩ = [⟨0⟩] ∧
      g'.inEdges ⟨1⟩ ≠ g.inEdges ⟨1⟩ := by
  intro history later g g'
  have hstart : g.hasNode ⟨0⟩ = true := by decide +kernel
  have hwf : ∀ ops, (Operation.run ops g).2.WellFormed :=
    Operation.run_wellFormed (ofHistory_wellFormed ⟨⟨0⟩⟩ history)
  have hapart : ∀ ops m, (Operation.run ops g).2.hasNode ⟨0⟩ = true →
      m ∉ (Operation.run ops g).2.topologicalOrder ⟨0⟩ →
      ¬ ReflTransGen (Operation.run ops g).2.Adj ⟨0⟩ m := by
    intro ops m hlive hm hreached
    exact hm (((hwf ops).mem_topologicalOrder_iff ⟨0⟩ m).mpr ⟨hlive, hreached⟩)
  have hlater : Throughout (fun earlier op =>
      op.LeavesAlone ⟨0⟩ (Operation.run earlier g).2) later := by
    simp only [later, throughout_cons, throughout_nil, and_true]
    refine ⟨?_, ?_, ?_⟩
    · refine Operation.Outside.leavesAlone (hwf []) hstart fun hreached => ?_
      exact absurd hreached (hapart [] ⟨2⟩ hstart (by decide +kernel))
    · exact Operation.Outside.leavesAlone (hwf _) (by decide +kernel) trivial
    · refine Operation.Outside.leavesAlone (hwf _) (by decide +kernel) ?_
      exact hapart _ ⟨3⟩ (by decide +kernel) (by decide +kernel)
  obtain ⟨⟨-, -, hcycles, -⟩, -⟩ :=
    searches_local Unit Empty ⟨⟨0⟩⟩ history later ⟨0⟩ hstart hlater
  exact ⟨hstart, hlater, hcycles, by decide +kernel, by decide +kernel⟩

end Graph

end Multidigraph
