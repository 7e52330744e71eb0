import Mathlib.Algebra.Order.BigOperators.Group.List
import Mathlib.Algebra.Order.Group.Nat
import Multidigraph.Graph.Navigation
import Multidigraph.Proofs.CallLog
import Multidigraph.Proofs.Finishing
import Multidigraph.Proofs.History

open Relation

namespace Multidigraph

open Walk

section Visitors

variable {σ N ε : Type} (nav : Navigation σ N) (v : View N)

theorem Walk.pass_keeps : (pass : Visitor σ N ε).Keeps nav v := by
  intro world n status h
  exact h

theorem Walk.untilCycle_keeps : (untilCycle : Visitor σ N Empty).Keeps nav v := by
  intro world n status h
  exact h

theorem Walk.collect_keeps :
    (collect : Visitor (σ × Array N) N Empty).Keeps (nav.comap Prod.fst) v := by
  intro world n status h
  exact h

theorem Walk.DepthFirst.Explores.collected [Ord N] [Std.TransOrd N] {flags : Flags}
    {pre : Visitor (σ × Array N) N Empty}
    (hpre : ∀ world n status, (pre world n status).2.2 = world.2)
    {path : Std.ExtTreeSet N} {p q : Progress (σ × Array N) N Empty} {ns left : List N}
    (h : Explores v pre collect flags path p ns left q) :
    q.world.2.toList = p.world.2.toList ++ left := by
  have henter : ∀ (path : Std.ExtTreeSet N) (p : Progress (σ × Array N) N Empty) (n : N),
      (p.enter v pre flags path n).world.2 = p.world.2 := by
    intro path p n
    rw [Progress.world_enter]
    exact hpre _ _ _
  induction h with
  | halt | nil => simp
  | seen _ _ _ ih | absent _ _ _ _ ih => exact ih
  | cut _ _ _ _ _ ih => rw [ih, henter]
  | @visit path p n _ left left' q r _ _ _ _ _ _ ihbelow ihrest =>
    have hcall : (q.call collect flags n).world.2.toList = q.world.2.toList ++ [n] := by
      simp [Progress.world_call, collect]
    rw [ihrest, hcall, ihbelow, henter]
    simp

end Visitors

section Comap

variable {τ σ N ε : Type} (f : τ → σ)

theorem Walk.pass_projects : (pass : Visitor τ N ε).Projects f pass := fun _ _ _ => rfl

theorem Walk.untilCycle_projects : (untilCycle : Visitor τ N Empty).Projects f untilCycle :=
  fun _ _ _ => rfl

theorem Walk.collect_projects :
    (collect : Visitor (τ × Array N) N Empty).Projects (Prod.map f id) collect := fun _ _ _ => rfl

variable [Ord N] [Std.TransOrd N] (nav : Navigation σ N) (limit : Nat) (world : τ) (n : N)

theorem Walk.hasCycle_comap :
    Walk.hasCycle nav limit (f world) n = Walk.hasCycle (nav.comap f) limit world n := by
  have hwalk : depthFirst nav untilCycle pass {} limit (f world) n =
      (depthFirst (nav.comap f) untilCycle pass {} limit world n).mapWorld f :=
    depthFirst_mapWorld (untilCycle_projects f) (pass_projects f) {} limit world n
  exact congrArg (fun r => r.status.hasCycles) hwalk

theorem Walk.firstCycle?_comap :
    Walk.firstCycle? nav limit (f world) n = Walk.firstCycle? (nav.comap f) limit world n := by
  have hwalk : depthFirst nav untilCycle pass {} limit (f world) n =
      (depthFirst (nav.comap f) untilCycle pass {} limit world n).mapWorld f :=
    depthFirst_mapWorld (untilCycle_projects f) (pass_projects f) {} limit world n
  exact congrArg (fun r => r.status.firstCycle?) hwalk

theorem Walk.allCycles_comap :
    Walk.allCycles nav limit (f world) n = Walk.allCycles (nav.comap f) limit world n := by
  have hwalk : depthFirst nav (pass : Visitor _ N Empty) pass {} limit (f world) n =
      (depthFirst (nav.comap f) (pass : Visitor _ N Empty) pass {} limit world n).mapWorld f :=
    depthFirst_mapWorld (pass_projects f) (pass_projects f) {} limit world n
  exact congrArg (fun r => r.status.cycles.toList) hwalk

theorem Walk.reachable_comap (flags : Flags) :
    Walk.reachable nav limit (f world) n flags =
      Walk.reachable (nav.comap f) limit world n flags := by
  have hwalk : depthFirst (nav.comap Prod.fst) collect pass flags limit (f world, #[]) n =
      (depthFirst ((nav.comap f).comap Prod.fst) collect pass flags limit
        (world, #[]) n).mapWorld (Prod.map f id) :=
    depthFirst_mapWorld (collect_projects f) (pass_projects _) flags limit (world, #[]) n
  exact congrArg (fun r => r.world.2.toList) hwalk

theorem Walk.topologicalOrder_comap :
    Walk.topologicalOrder nav limit (f world) n =
      Walk.topologicalOrder (nav.comap f) limit world n := by
  have hwalk : depthFirst (nav.comap Prod.fst) pass collect {} limit (f world, #[]) n =
      (depthFirst ((nav.comap f).comap Prod.fst) pass collect {} limit
        (world, #[]) n).mapWorld (Prod.map f id) :=
    depthFirst_mapWorld (pass_projects _) (collect_projects f) {} limit (world, #[]) n
  exact congrArg (fun r => r.world.2.toList) hwalk

end Comap

namespace Graph

theorem searches_eq_of_comap {f : Graph → Graph} (hnavigation : navigation.comap f = navigation)
    {g : Graph} (hbound : (f g).stepBound = g.stepBound) (h : NodeHandle) :
    (f g).hasCycle h = g.hasCycle h ∧ (f g).firstCycle? h = g.firstCycle? h ∧
      (f g).allCycles h = g.allCycles h ∧
      (∀ flags, (f g).reachable h flags = g.reachable h flags) ∧
      (f g).topologicalOrder h = g.topologicalOrder h := by
  simp only [hasCycle, firstCycle?, allCycles, reachable, topologicalOrder, hbound,
    Walk.hasCycle_comap f, Walk.firstCycle?_comap f, Walk.allCycles_comap f, Walk.reachable_comap f,
    Walk.topologicalOrder_comap f, hnavigation, implies_true, and_self]

end Graph

namespace Graph

variable {g : Graph}

/-- Whether a live edge runs from one node to the other. -/
def Adj (g : Graph) (a b : NodeHandle) : Prop :=
  ∃ k e, g.edge? k = some e ∧ e.source = a ∧ e.destination = b

def handles (g : Graph) : List NodeHandle := (List.range g.nodeSlots.size).map NodeHandle.mk

theorem mem_handles_of_hasNode {h : NodeHandle} (hh : g.hasNode h = true) : h ∈ g.handles := by
  obtain ⟨n, hn⟩ := hasNode_iff.mp hh
  exact List.mem_map.mpr ⟨h.slot, List.mem_range.mpr (slot_lt_of_node? hn), rfl⟩

theorem Adj.hasNode (hg : g.WellFormed) {a b : NodeHandle} (hab : g.Adj a b) :
    g.hasNode a = true ∧ g.hasNode b = true := by
  obtain ⟨k, e, he, rfl, rfl⟩ := hab
  exact ⟨(hg.edges k e he).source, (hg.edges k e he).destination⟩

theorem hasNode_of_reflTransGen (hg : g.WellFormed) {a b : NodeHandle}
    (ha : g.hasNode a = true) (hab : ReflTransGen g.Adj a b) : g.hasNode b = true := by
  induction hab with
  | refl => exact ha
  | tail _ hstep _ => exact (hstep.hasNode hg).2

theorem WellFormed.mem_successors_iff (hg : g.WellFormed) {a b : NodeHandle} :
    b ∈ g.successors a ↔ g.Adj a b := by
  simp only [successors, List.mem_filterMap, hg.mem_outEdges_iff, source?, Option.map_eq_some_iff]
  constructor
  · rintro ⟨k, ⟨e, he, hs⟩, f, hf, hd⟩
    obtain rfl : e = f := Option.some.inj (he.symm.trans hf)
    exact ⟨k, e, he, hs, hd⟩
  · rintro ⟨k, e, he, hs, hd⟩
    exact ⟨k, ⟨e, he, hs⟩, e, he, hd⟩

theorem neighbours_navigation (g : Graph) (h : NodeHandle) :
    (navigation.view g).neighbours {} h = g.successors h := by
  simp only [View.neighbours_eq, Navigation.view, navigation, if_true, resolved, List.filterMap_map,
    successors]
  rfl

theorem WellFormed.leads_eq (hg : g.WellFormed) : (navigation.view g).Leads {} = g.Adj := by
  ext a b
  rw [View.Leads, neighbours_navigation, hg.mem_successors_iff]
  exact ⟨And.right, fun hab => ⟨(hab.hasNode hg).1, hab⟩⟩

section StepBound

def listed (n : Node) : Nat := n.outEdges.length + n.inEdges.length

theorem pushBound_eq (g : Graph) : g.pushBound = 1 + (g.nodeSlots.toList.map listed).sum := by
  have hfold : ∀ (ns : List Node) (k : Nat),
      ns.foldl (fun k n => k + n.outEdges.length + n.inEdges.length) k =
        k + (ns.map listed).sum := by
    intro ns
    induction ns with
    | nil => intro k; rfl
    | cons n ns ih =>
      intro k
      rw [List.foldl_cons, ih, List.map_cons, List.sum_cons, listed]
      omega
  exact hfold _ 1

theorem sum_listed (g : Graph) :
    (g.nodeSlots.toList.map listed).sum =
      (g.handles.map fun h => ((g.node? h).map listed).getD 0).sum := by
  have hsum : ∀ slots : List Nat,
      ((slots.filterMap g.nodeSlots.get?).map listed).sum =
        ((slots.map NodeHandle.mk).map fun h => ((g.node? h).map listed).getD 0).sum := by
    intro slots
    induction slots with
    | nil => rfl
    | cons i slots ih =>
      have hi : g.node? ⟨i⟩ = g.nodeSlots.get? i := rfl
      cases hn : g.nodeSlots.get? i with
      | none => simp [hi, hn, ih]
      | some n => simp [hi, hn, ih]
  rw [Arena.toList_eq_filterMap, hsum, handles]

theorem length_neighbours_le (g : Graph) (flags : Flags) (h : NodeHandle) :
    ((navigation.view g).neighbours flags h).length ≤ ((g.node? h).map listed).getD 0 := by
  have hout : (resolved ((navigation.view g).outgoing h)).length ≤ (g.outEdges h).length := by
    refine Nat.le_trans (List.length_filterMap_le _ _) ?_
    simp [Navigation.view, navigation]
  have hin : (resolved ((navigation.view g).incoming h)).length ≤ (g.inEdges h).length := by
    refine Nat.le_trans (List.length_filterMap_le _ _) ?_
    simp [Navigation.view, navigation]
  have hlisted : ((g.node? h).map listed).getD 0 =
      (g.outEdges h).length + (g.inEdges h).length := by
    cases hn : g.node? h <;> simp [outEdges, inEdges, listed, hn]
  rw [hlisted]
  rw [View.neighbours_eq]
  split
  · omega
  · rw [List.length_append]
    omega

/-- The step limit of a graph is enough for a walk that leaves the graph as it is. -/
theorem pushes_le_stepBound (g : Graph) (flags : Flags) :
    2 * (navigation.view g).pushes flags g.handles ≤ g.stepBound := by
  have hsum := List.sum_le_sum (l := g.handles) fun h _ => g.length_neighbours_le flags h
  rw [stepBound, pushBound_eq, sum_listed, View.pushes]
  omega

end StepBound

section Searches

open DepthFirst

variable (g : Graph) (h : NodeHandle)

theorem hasCycle_explores :
    ∃ left q, Explores (navigation.view g) untilCycle pass {} ∅ (.start g) [h] left q ∧
      g.hasCycle h = q.status.hasCycles := by
  obtain ⟨left, q, hq, hruns⟩ := depthFirst_explores navigation g
    (untilCycle_keeps navigation _) (pass_keeps navigation _)
    (fun _ => mem_handles_of_hasNode (g := g)) {} h
  refine ⟨left, q, hq, ?_⟩
  rw [hasCycle, Walk.hasCycle, hruns _ (g.pushes_le_stepBound {})]
  rfl

theorem order_and_cycles_explores :
    ∃ left q, Explores (navigation.view g) pass collect {} ∅ (.start (g, #[])) [h] left q ∧
      g.topologicalOrder h = left ∧ g.allCycles h = q.status.cycles.toList := by
  obtain ⟨left, q, hq, hruns⟩ := depthFirst_explores (navigation.comap Prod.fst) (g, #[])
    (pass_keeps (navigation.comap Prod.fst) _) (collect_keeps navigation _)
    (fun _ => mem_handles_of_hasNode (g := g)) {} h
  have hrun := hruns _ (g.pushes_le_stepBound {})
  refine ⟨left, q, hq, ?_, ?_⟩
  · rw [topologicalOrder, Walk.topologicalOrder, hrun]
    have hcollected := hq.collected _ fun _ _ _ => rfl
    simpa [Progress.report, Progress.start] using hcollected
  · have hpass : (pass : Visitor (Graph × Array NodeHandle) NodeHandle Empty).Projects Prod.fst
        pass := fun _ _ _ => rfl
    have hcollect : (collect : Visitor (Graph × Array NodeHandle) NodeHandle Empty).Projects
        Prod.fst pass := fun _ _ _ => rfl
    have hproject : depthFirst navigation pass pass {} g.stepBound g h = _ :=
      depthFirst_mapWorld hpass hcollect {} g.stepBound (g, #[]) h
    rw [allCycles, Walk.allCycles, hproject, hrun]
    rfl

theorem topologicalOrder_explores :
    ∃ left q, Explores (navigation.view g) pass collect {} ∅ (.start (g, #[])) [h] left q ∧
      g.topologicalOrder h = left := by
  obtain ⟨left, q, hq, hleft, -⟩ := g.order_and_cycles_explores h
  exact ⟨left, q, hq, hleft⟩

/-- The search for a cycle finds one exactly if one can be reached from a live node. -/
theorem hasCycle_ofHistory_iff (id : GraphId) (ops : List Operation) (h : NodeHandle) :
    let g := ofHistory id ops
    g.hasCycle h = true ↔
      g.hasNode h = true ∧ ∃ n, ReflTransGen g.Adj h n ∧ TransGen g.Adj n n := by
  intro g
  have hg : g.WellFormed := ofHistory_wellFormed id ops
  obtain ⟨left, q, hq, heq⟩ := g.hasCycle_explores h
  rw [heq]
  cases hh : g.hasNode h with
  | false => simp [hq.hasCycles_of_absent hh]
  | true =>
    have hiff := hq.hasCycles_iff hh (untilCycle_stopsAtCycles {}) (pass_stopsAtCycles {})
    rw [hg.leads_eq] at hiff
    simpa using hiff

variable {g h} in
theorem WellFormed.topologicalOrder_explores (hg : g.WellFormed) (hh : g.hasNode h = true)
    (hacyclic : ∀ n, ReflTransGen g.Adj h n → ¬ TransGen g.Adj n n) :
    ∃ q, Explores (navigation.view g) pass collect {} ∅ (.start (g, #[])) [h]
      (g.topologicalOrder h) q ∧ q.stopped = false ∧ q.status.hasCycles = false := by
  obtain ⟨left, q, hq, rfl⟩ := g.topologicalOrder_explores h
  have hno : q.status.hasCycles = false := by
    rw [← Bool.not_eq_true, hq.hasCycles_iff hh (pass_stopsAtCycles {}) (collect_stopsAtCycles {}),
      hg.leads_eq]
    rintro ⟨n, hr, hcyclic⟩
    exact hacyclic n hr hcyclic
  exact ⟨q, hq, hq.stopped_of_no_cycles (pass_stopsAtCycles {}) (collect_stopsAtCycles {}) rfl hno,
    hno⟩

/-- Where no cycle can be reached, the order lists each node that can be reached once, the start
last, and each node after all others that it leads to. -/
theorem topologicalOrder_ofHistory (id : GraphId) (ops : List Operation) (h : NodeHandle)
    (hh : (ofHistory id ops).hasNode h = true)
    (hacyclic : ∀ n, ReflTransGen (ofHistory id ops).Adj h n →
      ¬ TransGen (ofHistory id ops).Adj n n) :
    let g := ofHistory id ops
    let order := g.topologicalOrder h
    order.Nodup ∧ (∀ n, n ∈ order ↔ ReflTransGen g.Adj h n) ∧ order.getLast? = some h ∧
      (∀ a b, ReflTransGen g.Adj h a → ReflTransGen g.Adj a b → b ≠ a →
        order.idxOf b < order.idxOf a) ∧
      ∀ a b, ReflTransGen g.Adj h a → g.Adj a b → order.idxOf b < order.idxOf a := by
  intro g order
  have hg : g.WellFormed := ofHistory_wellFormed id ops
  obtain ⟨q, hq, hstop, hno⟩ := hg.topologicalOrder_explores hh hacyclic
  have hmem : ∀ n, n ∈ order ↔ ReflTransGen g.Adj h n := by
    intro n
    rw [hq.mem_left_iff_reaches hstop hh, hg.leads_eq]
    exact ⟨And.right, fun hr => ⟨hasNode_of_reflTransGen hg hh hr, hr⟩⟩
  have hlt : ∀ a b, ReflTransGen g.Adj h a → TransGen g.Adj a b →
      order.idxOf b < order.idxOf a := by
    intro a b ha hab
    have hb : g.hasNode b = true := hasNode_of_reflTransGen hg hh (ha.trans hab.to_reflTransGen)
    rw [← hg.leads_eq] at hab
    exact (hq.idxOf_lt_of_transGen hstop hno ((hmem a).mpr ha) hab hb).2
  refine ⟨hq.nodup_left hstop, hmem, hq.getLast?_left hstop hh, ?_, ?_⟩
  · intro a b ha hab hne
    obtain heq | hab := reflTransGen_iff_eq_or_transGen.mp hab
    · exact absurd heq hne
    · exact hlt a b ha hab
  · intro a b ha hab
    exact hlt a b ha (.single hab)

/-- Four nodes with five edges, two of them parallel; the node made first leads to all others. -/
theorem topologicalOrder_ofHistory_diamond :
    let ops : List Operation := [.putNode "a" "", .putNode "b" "", .putNode "c" "",
      .putNode "d" "", .putEdge .default "ab" "" ⟨0⟩ ⟨1⟩, .putEdge .default "ac" "" ⟨0⟩ ⟨2⟩,
      .putEdge .default "bd" "" ⟨1⟩ ⟨3⟩, .putEdge .default "cd" "" ⟨2⟩ ⟨3⟩,
      .putEdge .default "dc" "" ⟨2⟩ ⟨3⟩]
    let g := ofHistory ⟨⟨0⟩⟩ ops
    g.hasNode ⟨0⟩ = true ∧ (∀ n, ReflTransGen g.Adj ⟨0⟩ n → ¬ TransGen g.Adj n n) ∧
      (g.topologicalOrder ⟨0⟩).getLast? = some ⟨0⟩ ∧
      (g.topologicalOrder ⟨0⟩).idxOf ⟨3⟩ < (g.topologicalOrder ⟨0⟩).idxOf ⟨2⟩ := by
  intro ops g
  have hlive : g.hasNode ⟨0⟩ = true := by decide +kernel
  have hedges : ∀ e ∈ g.edgeSlots.toList, e.source.slot < e.destination.slot := by decide +kernel
  have hadj : ∀ a b, TransGen g.Adj a b → a.slot < b.slot := by
    have hone : ∀ a b, g.Adj a b → a.slot < b.slot := by
      rintro a b ⟨k, e, he, rfl, rfl⟩
      exact hedges e (g.edgeSlots.mem_toList_of_get? he)
    intro a b hab
    induction hab with
    | single hab => exact hone _ _ hab
    | tail _ hbc ih => exact Nat.lt_trans ih (hone _ _ hbc)
  have hacyclic : ∀ n, ReflTransGen g.Adj ⟨0⟩ n → ¬ TransGen g.Adj n n := by
    intro n _ hn
    exact Nat.lt_irrefl _ (hadj n n hn)
  have hdc : g.Adj ⟨2⟩ ⟨3⟩ := ⟨⟨4⟩, ⟨"dc", "", .one, .default, ⟨2⟩, ⟨3⟩, ⟨⟨0⟩⟩⟩, rfl, rfl, rfl⟩
  have hac : g.Adj ⟨0⟩ ⟨2⟩ := ⟨⟨1⟩, ⟨"ac", "", .one, .default, ⟨0⟩, ⟨2⟩, ⟨⟨0⟩⟩⟩, rfl, rfl, rfl⟩
  obtain ⟨-, -, hlast, -, hlt⟩ := topologicalOrder_ofHistory ⟨⟨0⟩⟩ ops ⟨0⟩ hlive hacyclic
  exact ⟨hlive, hacyclic, hlast, hlt ⟨2⟩ ⟨3⟩ (.single hac) hdc⟩

end Searches

end Graph

end Multidigraph
