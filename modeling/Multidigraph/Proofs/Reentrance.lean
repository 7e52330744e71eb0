import Multidigraph.Proofs.Ageing
import Multidigraph.Proofs.Coverage
import Multidigraph.Proofs.Search

namespace Multidigraph

open Walk

namespace Graph

variable {g : Graph} {a b : NodeHandle} {κ ε : Type}

/-- Whether a live edge takes a walk from one node to the other. -/
def Joined (g : Graph) (flags : Flags) (a b : NodeHandle) : Prop :=
  g.Adj a b ∨ flags.directed = false ∧ g.Adj b a

theorem Joined.hasNode (hg : g.WellFormed) {flags : Flags} (hab : g.Joined flags a b) :
    g.hasNode a = true ∧ g.hasNode b = true := by
  obtain hab | ⟨-, hba⟩ := hab
  · exact hab.hasNode hg
  · exact (hba.hasNode hg).symm

theorem WellFormed.mem_predecessors_iff (hg : g.WellFormed) :
    b ∈ g.predecessors a ↔ g.Adj b a := by
  simp only [predecessors, List.mem_filterMap, hg.mem_inEdges_iff, destination?,
    Option.map_eq_some_iff]
  constructor
  · rintro ⟨k, ⟨e, he, hd⟩, f, hf, hs⟩
    obtain rfl : e = f := Option.some.inj (he.symm.trans hf)
    exact ⟨k, e, he, hs, hd⟩
  · rintro ⟨k, e, he, hs, hd⟩
    exact ⟨k, ⟨e, he, hd⟩, e, he, hs⟩

theorem resolved_outgoing (g : Graph) (h : NodeHandle) :
    resolved (navigation.outgoing g h) = g.successors h := by
  simp only [resolved, navigation, List.filterMap_map, successors]
  rfl

theorem resolved_incoming (g : Graph) (h : NodeHandle) :
    resolved (navigation.incoming g h) = g.predecessors h := by
  simp only [resolved, navigation, List.filterMap_map, predecessors]
  rfl

theorem WellFormed.mem_neighbours_iff (hg : g.WellFormed) {flags : Flags} :
    b ∈ (navigation.view g).neighbours flags a ↔ g.Joined flags a b := by
  simp only [View.neighbours_eq, Navigation.view, resolved_outgoing, resolved_incoming, Joined]
  cases hd : flags.directed with
  | true => simp [hg.mem_successors_iff]
  | false => simp [hg.mem_successors_iff, hg.mem_predecessors_iff, or_comm]

def ground (κ : Type) (flags : Flags) :
    Ground (navigation.comap Prod.fst : Navigation (Graph × κ) NodeHandle) flags where
  inv world := world.1.WellFormed
  known world := world.1.Issued
  leads world := world.1.Joined flags
  mem_neighbours_iff hg := hg.mem_neighbours_iff
  known_of_leads hg hab := issued_of_hasNode (hab.hasNode hg).2

end Graph

namespace Walk

variable {κ ε : Type}

def Visitor.Operates (visit : Visitor (Graph × κ) NodeHandle ε) : Prop :=
  ∀ world n status, ∃ ops, (visit world n status).2.1 = (Operation.run ops world.1).2

theorem Visitor.Operates.respects {visit : Visitor (Graph × κ) NodeHandle ε} (h : visit.Operates)
    (flags : Flags) : visit.Respects (Graph.ground κ flags) := by
  constructor
  case inv =>
    intro world n status hg
    obtain ⟨ops, hops⟩ := h world n status
    change (visit world n status).2.1.WellFormed
    rw [hops]
    exact Operation.run_wellFormed hg ops
  case known =>
    intro world n status m _ hm
    obtain ⟨ops, hops⟩ := h world n status
    change (visit world n status).2.1.Issued m
    rw [hops]
    exact (Operation.run_ages ops world.1).issued hm
  case gone =>
    intro world n status m _ hm hgone
    obtain ⟨ops, hops⟩ := h world n status
    change (visit world n status).2.1.hasNode m = false
    rw [hops, ← Bool.not_eq_true]
    intro hlive
    have hthere : world.1.hasNode m = true := (Operation.run_ages ops world.1).hasNode hm hlive
    exact Bool.false_ne_true (hgone.symm.trans hthere)

/-- Whatever the visitors do to a graph, both walks visit a node once at most, when it is there and
has been in sight, and they visit all nodes in sight that are there in the end. The record of the
calls changes nothing about a walk. -/
theorem walks_cover_ofHistory (graph : GraphId) (history : List Operation) (k : κ)
    (pre post visit : Visitor (Graph × κ) NodeHandle ε) (hpre : pre.Operates)
    (hpost : post.Operates) (hvisit : visit.Operates) (flags : Flags) (limit : Nat)
    (start : NodeHandle) :
    let nav : Navigation (Graph × κ) NodeHandle := Graph.navigation.comap Prod.fst
    let world := (Graph.ofHistory graph history, k)
    let deep := depthFirst (nav.comap Prod.fst) (pre.recorded .first) (post.recorded .last) flags
      limit (world, #[]) start
    let broad := breadthFirst (nav.comap Prod.fst) (visit.recorded .first) flags limit
      (world, #[]) start
    (Covers (·.1.hasNode) (·.1.Joined flags) flags start deep ∧
      deep.mapWorld Prod.fst = depthFirst nav pre post flags limit world start) ∧
    (Covers (·.1.hasNode) (·.1.Joined flags) flags start broad ∧
      broad.mapWorld Prod.fst = breadthFirst nav visit flags limit world start) := by
  intro nav world deep broad
  have hinv : (Graph.ground κ flags).inv world := Graph.ofHistory_wellFormed graph history
  refine ⟨⟨?_, ?_⟩, ?_, ?_⟩
  · have hexplored := DepthFirst.explored_course (hpre.respects flags) (hpost.respects flags) hinv
      start [] (by simp) limit
    have hdeep : deep = _ := depthFirst_recorded nav pre post id flags limit world start
    rw [hdeep]
    exact hexplored.covers (DepthFirst.plan_orderly nav flags) _
  · exact depthFirst_recorded_mapWorld nav pre post id flags limit world start
  · have hexplored := BreadthFirst.explored_course (hvisit.respects flags) hinv start [] (by simp)
      limit
    have hbroad : broad = _ := breadthFirst_recorded nav visit id flags limit world start
    rw [hbroad]
    exact hexplored.covers (BreadthFirst.plan_orderly nav flags) _
  · exact breadthFirst_recorded_mapWorld nav visit id flags limit world start

/-- The visit of the first node takes away one that it leads to, and makes a new one. The visits of
two others lead to the new one, and one of the two takes itself away. -/
theorem walks_cover_detour :
    let history : List Operation := [.putNode "a" "", .putNode "b" "", .putNode "c" "",
      .putNode "d" "", .putEdge .default "ab" "" ⟨0⟩ ⟨1⟩, .putEdge .default "ac" "" ⟨0⟩ ⟨2⟩,
      .putEdge .default "ad" "" ⟨0⟩ ⟨3⟩]
    let changes (n : NodeHandle) : List Operation :=
      if n = ⟨0⟩ then [.eraseNode ⟨1⟩, .putNode "b" ""]
      else if n = ⟨2⟩ then [.putEdge .default "cb" "" ⟨2⟩ ⟨4⟩, .eraseNode ⟨2⟩]
      else if n = ⟨3⟩ then [.putEdge .default "db" "" ⟨3⟩ ⟨4⟩]
      else []
    let visit : Visitor (Graph × Unit) NodeHandle Empty := fun (g, _) n _ =>
      (.proceed, (Operation.run (changes n) g).2, ())
    let nav : Navigation (Graph × Unit) NodeHandle := Graph.navigation.comap Prod.fst
    let world := (Graph.ofHistory ⟨⟨0⟩⟩ history, ())
    let deep := depthFirst (nav.comap Prod.fst) (visit.recorded .first) (visit.recorded .last) {}
      20 (world, #[]) ⟨0⟩
    let broad := breadthFirst (nav.comap Prod.fst) (visit.recorded .first) {} 20 (world, #[]) ⟨0⟩
    visit.Operates ∧ Covers (·.1.hasNode) (·.1.Joined {}) {} ⟨0⟩ deep ∧
      Covers (·.1.hasNode) (·.1.Joined {}) {} ⟨0⟩ broad ∧
      visits deep.world.2.toList = [⟨0⟩, ⟨2⟩, ⟨3⟩, ⟨4⟩] ∧ deep.finished = true ∧
      visits broad.world.2.toList = [⟨0⟩, ⟨2⟩, ⟨3⟩, ⟨4⟩] ∧ broad.finished = true := by
  intro history changes visit nav world deep broad
  have hvisit : visit.Operates := fun (_, _) n _ => ⟨changes n, rfl⟩
  obtain ⟨⟨hdeep, -⟩, hbroad, -⟩ :=
    walks_cover_ofHistory ⟨⟨0⟩⟩ history () visit visit visit hvisit hvisit hvisit {} 20 ⟨0⟩
  exact ⟨hvisit, hdeep, hbroad, by decide +kernel, by decide +kernel, by decide +kernel,
    by decide +kernel⟩

end Walk

end Multidigraph
