import Multidigraph.Proofs.Component
import Multidigraph.Proofs.Levels

open Relation

namespace Multidigraph

namespace Walk

variable {σ N ε : Type}

section Accounts

variable {v : View N} {flags : Flags} {start n : N} {behind order cycles : List N}

/-- Whether all live entries ever queued are accounted for: as visits, as cycles or as waiting. -/
def Accounts (v : View N) (flags : Flags) (start : N) (queue order cycles : List N) : Prop :=
  (order ++ (cycles ++ queue.filter v.contains)).Perm
    ((resolved (some start :: order.flatMap (v.positions flags))).filter v.contains)

theorem accounts_start (v : View N) (flags : Flags) (start : N) :
    Accounts v flags start [start] [] [] := .refl _

theorem Accounts.repeated (h : Accounts v flags start (n :: behind) order cycles)
    (hlive : v.contains n = true) : Accounts v flags start behind order (cycles ++ [n]) := by
  rw [Accounts, List.filter_cons_of_pos hlive] at h
  rwa [Accounts, List.append_assoc, List.singleton_append]

theorem Accounts.absent (h : Accounts v flags start (n :: behind) order cycles)
    (hgone : v.contains n = false) : Accounts v flags start behind order cycles := by
  rwa [Accounts, List.filter_cons_of_neg (by simp [hgone])] at h

theorem Accounts.enter (h : Accounts v flags start (n :: behind) order cycles)
    (hlive : v.contains n = true) :
    Accounts v flags start (behind ++ resolved (v.positions flags n)) (order ++ [n]) cycles := by
  have hqueued : resolved (some start :: (order ++ [n]).flatMap (v.positions flags)) =
      resolved (some start :: order.flatMap (v.positions flags)) ++
        resolved (v.positions flags n) := by
    simp [resolved]
  rw [Accounts, List.filter_cons_of_pos hlive] at h
  rw [Accounts, hqueued, List.filter_append, List.filter_append]
  refine .trans ?_ (h.append_right _)
  simp only [List.append_assoc, List.cons_append, List.nil_append]
  exact .append_left _ List.perm_middle.symm

end Accounts

section Walks

variable [Ord N] [Std.TransOrd N] {nav : Navigation σ N} {v : View N} {flags : Flags}
  {visit : Visitor σ N ε}

namespace BreadthFirst

theorem cycles_step_of_directed (hflags : flags.directed = true) {s t : State σ N ε}
    (hs : s.status.cycles = #[]) (hstep : step nav visit flags s = some t) :
    t.status.cycles = #[] := by
  unfold step at hstep
  split at hstep
  · cases hstep
  split at hstep
  · cases hstep
  split at hstep
  · cases hstep
    simpa [hflags] using hs
  split at hstep
  · cases hstep
    unfold enter
    dsimp only
    split
    · unfold expand
      rw [if_pos hflags]
      exact (Status.cycles_note _ _ _).trans hs
    · exact (Status.cycles_note _ _ _).trans hs
  · cases hstep
    exact hs

variable [Std.LawfulEqOrd N] [DecidableEq N]

structure Tallies (nav : Navigation σ N) (v : View N) (flags : Flags) (start : N)
    (c : Course (Agenda N) σ N ε) : Prop where
  queues : Queues nav v flags start c
  accounts : Accounts v flags start c.control.queue (visits c.events.toList)
    c.status.cycles.toList

theorem Tallies.step (hflags : flags.directed = false) (hvisit : visit.Keeps nav v)
    (hgoes : visit.GoesOn flags) {start : N} {c d : Course (Agenda N) σ N ε}
    (hc : Tallies nav v flags start c)
    (hstep : c.step (plan nav flags) (fun _ => visit) id flags = some d) :
    Tallies nav v flags start d := by
  obtain ⟨hqueues, h⟩ := hc
  refine ⟨hqueues.step hvisit hgoes hstep, ?_⟩
  cases takes_of_step hvisit hgoes hqueues.explored hstep with
  | repeated n hqueue hn hvisits hcycles =>
    rw [hqueue] at h
    rw [hvisits, hcycles, hflags]
    exact h.repeated (hqueues.inTurn.contains_of_mem hn)
  | absent n hqueue hgone hvisits hcycles =>
    rw [hqueue] at h
    rw [hvisits, hcycles]
    exact h.absent hgone
  | entered n behind hqueue _ hlive hqueue' hvisits hcycles =>
    rw [hqueue] at h
    rw [hqueue', hvisits, hcycles]
    exact h.enter hlive

theorem tallies_course (hflags : flags.directed = false) (world : σ)
    (hvisit : visit.Keeps nav (nav.view world)) (hgoes : visit.GoesOn flags) (start : N)
    (limit : Nat) :
    Tallies nav (nav.view world) flags start (course nav visit id flags limit world start) := by
  refine iterate_invariant (fun _ _ => Tallies.step hflags hvisit hgoes) ⟨?_, ?_⟩ limit
  · exact queues_course world hvisit hgoes start 0
  · exact accounts_start (nav.view world) flags start

end BreadthFirst

theorem breadthFirst_cycles_of_directed (hflags : flags.directed = true) (nav : Navigation σ N)
    (visit : Visitor σ N ε) (limit : Nat) (world : σ) (start : N) :
    (breadthFirst nav visit flags limit world start).status.cycles = #[] := by
  let none (s : BreadthFirst.State σ N ε) : Prop := s.status.cycles = #[]
  have hstart : none (BreadthFirst.start world start) := rfl
  exact iterate_invariant (fun _ _ => BreadthFirst.cycles_step_of_directed hflags) hstart limit

open BreadthFirst in
/-- When no call ends a breadth-first walk that goes both ways, the live entries that are ever
queued are those for which a node is visited and those that count as cycles. -/
theorem breadthFirst_arrivals [Std.LawfulEqOrd N] [DecidableEq N] {nodes : List N}
    (hflags : flags.directed = false) (world : σ) (hvisit : visit.Keeps nav (nav.view world))
    (hgoes : visit.GoesOn flags) (hnodes : ∀ m, nav.contains world m = true → m ∈ nodes)
    {limit : Nat} (hlimit : (nav.view world).pushes flags nodes ≤ limit) (start : N) :
    let r := breadthFirst (nav.comap Prod.fst) (visit.recorded .first) flags limit (world, #[])
      start
    let order := visits r.world.2.toList
    (order ++ r.status.cycles.toList).Perm
      ((resolved (some start :: order.flatMap ((nav.view world).positions flags))).filter
        (nav.view world).contains) := by
  intro r order
  have hr : r = (course nav visit id flags limit world start).report (plan nav flags)
      Agenda.warnings := breadthFirst_recorded nav visit id flags limit world start
  obtain ⟨hqueues, haccounts⟩ := tallies_course hflags world hvisit hgoes start limit
  have hidle := hqueues.explored.halts.idle (finished_course hvisit hnodes hlimit start)
    (Course.answered_iterate.goesOn fun _ => hgoes)
  rw [plan_eq_none hidle.2, Accounts, List.filter_nil, List.append_nil] at haccounts
  simp only [order, hr]
  exact haccounts

end Walks

end Walk

namespace Graph

open Walk

variable {g : Graph} {flags : Flags} {h v : NodeHandle}

theorem length_of_lists {near : Edge → NodeHandle} {ks : List EdgeHandle}
    (hks : Lists ks fun k => (g.edge? k).map near = some v) :
    ks.length = g.edgeSlots.toList.countP fun e => near e = v := by
  rw [List.countP_eq_length_filter, ← filterMap_edge?_of_lists hks]
  exact (List.filterMap_length_eq_length.mpr fun k hk => hks.isSome hk).symm

theorem count_map_componentEdges {near : Edge → NodeHandle} (hv : v ∈ g.component h)
    (hnear : ∀ e ∈ g.edgeSlots.toList, near e ∈ g.component h ↔ EqvGen g.Adj h e.source) :
    ((g.componentEdges h).map near).count v = g.edgeSlots.toList.countP fun e => near e = v := by
  simp only [componentEdges, List.count_eq_countP, List.countP_map, List.countP_filter]
  refine List.countP_congr fun e he => ?_
  have hjoined : near e = v → EqvGen g.Adj h e.source := fun heq =>
    (hnear e he).mp (heq ▸ hv)
  simpa using hjoined

theorem WellFormed.count_ends (hg : g.WellFormed) (hv : v ∈ g.component h) :
    ((g.componentEdges h).map Edge.source).count v = (g.outEdges v).length ∧
      ((g.componentEdges h).map Edge.destination).count v = (g.inEdges v).length := by
  rw [length_of_lists (hg.lists_outEdges v), length_of_lists (hg.lists_inEdges v)]
  exact ⟨count_map_componentEdges hv fun e he => (hg.ends_mem_component_iff he).1,
    count_map_componentEdges hv fun e he => (hg.ends_mem_component_iff he).2⟩

theorem WellFormed.mem_component_of_mem_ends (hg : g.WellFormed)
    (hv : v ∈ (g.componentEdges h).map Edge.source ++ (g.componentEdges h).map Edge.destination) :
    v ∈ g.component h := by
  obtain hv | hv := List.mem_append.mp hv
  · obtain ⟨e, he, rfl⟩ := List.mem_map.mp hv
    exact (hg.ends_mem_component he).1
  · obtain ⟨e, he, rfl⟩ := List.mem_map.mp hv
    exact (hg.ends_mem_component he).2

theorem WellFormed.resolved_positions_perm (hg : g.WellFormed) (hflags : flags.directed = false)
    {order : List NodeHandle} (horder : order.Perm (g.component h)) :
    (resolved (order.flatMap ((navigation.view g).positions flags))).Perm
      ((g.componentEdges h).map Edge.source ++ (g.componentEdges h).map Edge.destination) := by
  have hpositions : ∀ a, (resolved ((navigation.view g).positions flags a)).Perm
      (((navigation.view g).neighbours flags a).filter fun _ => True) := by
    intro a
    simp only [View.positions, View.neighbours, hflags, Bool.false_eq_true, if_false, decide_true,
      List.filter_true, resolved, List.filterMap_append]
    exact List.perm_append_comm
  rw [resolved, List.filterMap_flatMap]
  refine (List.Perm.flatMap_left _ fun a _ => hpositions a).trans ?_
  simpa using hg.flatMap_neighbours_perm hflags horder fun _ _ => True

theorem WellFormed.visits_append_cycles_perm {κ ε : Type} (hg : g.WellFormed)
    (hflags : flags.directed = false) (hh : g.hasNode h = true)
    {visit : Visitor (Graph × κ) NodeHandle ε}
    (hvisit : visit.Keeps (navigation.comap Prod.fst) (navigation.view g))
    (hgoes : visit.GoesOn flags) (k : κ) {limit : Nat}
    (hlimit : (navigation.view g).pushes flags g.handles ≤ limit) :
    let r := breadthFirst ((navigation.comap Prod.fst).comap Prod.fst) (visit.recorded .first) flags
      limit ((g, k), #[]) h
    (visits r.world.2.toList).Perm (g.component h) →
      (visits r.world.2.toList ++ r.status.cycles.toList).Perm
        (h :: ((g.componentEdges h).map Edge.source ++
          (g.componentEdges h).map Edge.destination)) := by
  intro r hcomponent
  have hqueued := breadthFirst_arrivals hflags (g, k) hvisit hgoes
    (fun _ => mem_handles_of_hasNode (g := g)) hlimit h
  have hends := (hg.resolved_positions_perm hflags hcomponent).cons h
  refine (hqueued.trans (hends.filter _)).trans (.of_eq (List.filter_eq_self.mpr fun m hm => ?_))
  obtain rfl | hm := List.mem_cons.mp hm
  · exact hh
  · exact (mem_component_iff.mp (hg.mem_component_of_mem_ends hm)).1

/-- A breadth-first walk that goes both ways, that only looks and that no call ends, visits the
nodes that are joined to its start, and counts a cycle at each of them for all of its edges but one;
at the start for all. A directed walk counts none, whatever its visitor does. -/
theorem breadthFirst_ofHistory_cycles (κ ε : Type) (id : GraphId) (ops : List Operation)
    (flags : Flags) (h : NodeHandle) :
    let g := ofHistory id ops
    let nav : Navigation (Graph × κ) NodeHandle := navigation.comap Prod.fst
    (g.hasNode h = true → flags.directed = false → ∀ visit : Visitor (Graph × κ) NodeHandle ε,
      visit.Keeps nav (navigation.view g) → visit.GoesOn flags →
        ∀ k limit, g.stepBound ≤ limit →
          let r := breadthFirst (nav.comap Prod.fst) (visit.recorded .first) flags limit
            ((g, k), #[]) h
          r.finished = true ∧ (visits r.world.2.toList).Perm (g.component h) ∧
            (∀ v ∈ g.component h, r.status.cycles.count v + 1 =
              (g.outEdges v).length + (g.inEdges v).length + if v = h then 1 else 0) ∧
            (∀ v ∈ r.status.cycles, v ∈ g.component h) ∧
            r.status.cycles.size + (g.component h).length =
              2 * (g.componentEdges h).length + 1 ∧
            r.mapWorld Prod.fst = breadthFirst nav visit flags limit (g, k) h) ∧
    (flags.directed = true → ∀ (visit : Visitor (Graph × κ) NodeHandle ε) limit world start,
      (breadthFirst nav visit flags limit world start).status.cycles = #[]) := by
  intro g nav
  refine ⟨?_, fun hflags visit limit world start =>
    breadthFirst_cycles_of_directed hflags nav visit limit world start⟩
  intro hh hflags visit hvisit hgoes k limit hlimit r
  have hg : g.WellFormed := ofHistory_wellFormed id ops
  have hpushes : (navigation.view g).pushes flags g.handles ≤ limit := by
    have hbound := g.pushes_le_stepBound flags
    omega
  have hr : Exhausts (navigation.view g) flags h r :=
    breadthFirst_exhausts (g, k) hvisit hgoes (fun _ => mem_handles_of_hasNode) hpushes h
  have hcomponent : (visits r.world.2.toList).Perm (g.component h) :=
    hg.perm_component hflags hr.nodup hr.mem_iff
  have hends : (visits r.world.2.toList ++ r.status.cycles.toList).Perm
      (h :: ((g.componentEdges h).map Edge.source ++
        (g.componentEdges h).map Edge.destination)) :=
    hg.visits_append_cycles_perm hflags hh hvisit hgoes k hpushes hcomponent
  refine ⟨hr.finished, hcomponent, fun v hv => ?_, fun v hv => ?_, ?_, ?_⟩
  · have hcount := hends.count_eq v
    have hone : (visits r.world.2.toList).count v = 1 := by
      rw [hcomponent.count_eq v]
      exact List.count_eq_one_of_mem (g.nodup_component h) hv
    obtain ⟨hout, hin⟩ := hg.count_ends hv
    rw [List.count_append, hone, List.count_cons, List.count_append, hout, hin,
      Array.count_toList] at hcount
    have hstart : (if h == v then 1 else 0) = if v = h then 1 else 0 := by
      by_cases heq : v = h
      · simp [heq]
      · simp [heq, Ne.symm heq]
    omega
  · have hv' : v ∈ h :: ((g.componentEdges h).map Edge.source ++
        (g.componentEdges h).map Edge.destination) :=
      hends.subset (List.mem_append_right _ (Array.mem_toList_iff.mpr hv))
    obtain rfl | hv' := List.mem_cons.mp hv'
    · exact mem_component_iff.mpr ⟨hh, .refl v⟩
    · exact hg.mem_component_of_mem_ends hv'
  · have hlength := hends.length_eq
    simp only [List.length_append, hcomponent.length_eq, List.length_cons, List.length_map,
      Array.length_toList] at hlength
    omega
  · exact breadthFirst_recorded_mapWorld nav visit (fun answer => answer) flags limit (g, k) h

/-- Three nodes with five edges, two of them parallel and one a loop, beside a node that was taken
away and one that is not joined to them. The same walk along the edges only, with a visitor that
takes away each node it comes to, counts no cycle. -/
theorem breadthFirst_ofHistory_cycles_loop :
    let ops : List Operation := [.putNode "a" "", .putNode "b" "", .putNode "c" "",
      .putNode "d" "", .putNode "e" "", .putEdge .default "ab" "" ⟨0⟩ ⟨1⟩,
      .putEdge .default "ab2" "" ⟨0⟩ ⟨1⟩, .putEdge .default "ba" "" ⟨1⟩ ⟨0⟩,
      .putEdge .default "bb" "" ⟨1⟩ ⟨1⟩, .putEdge .default "ca" "" ⟨2⟩ ⟨0⟩,
      .putEdge .default "cd" "" ⟨2⟩ ⟨3⟩, .putEdge .default "ee" "" ⟨4⟩ ⟨4⟩, .eraseNode ⟨3⟩]
    let g := ofHistory ⟨⟨0⟩⟩ ops
    let nav : Navigation (Graph × Nat) NodeHandle := navigation.comap Prod.fst
    let looks : Visitor (Graph × Nat) NodeHandle Nat := fun (g, k) _ _ =>
      (if k % 2 = 0 then .proceed else .fail k, g, k + 1)
    let erases : Visitor (Graph × Nat) NodeHandle Nat := fun (g, k) n _ =>
      (.proceed, (Operation.run [.eraseNode n] g).2, k)
    let r := breadthFirst (nav.comap Prod.fst) (looks.recorded .first) { directed := false }
      g.stepBound ((g, 0), #[]) ⟨0⟩
    g.hasNode ⟨0⟩ = true ∧ looks.Keeps nav (navigation.view g) ∧
      looks.GoesOn { directed := false } ∧
      r.status.cycles.size + (g.component ⟨0⟩).length = 2 * (g.componentEdges ⟨0⟩).length + 1 ∧
      visits r.world.2.toList = [⟨0⟩, ⟨1⟩, ⟨2⟩] ∧ r.status.cycles.size = 8 ∧
      r.status.cycles.count ⟨1⟩ + 1 = (g.outEdges ⟨1⟩).length + (g.inEdges ⟨1⟩).length ∧
      (breadthFirst (navigation.comap Prod.fst) erases {} 20 (g, 0) ⟨0⟩).status.cycles = #[] := by
  intro ops g nav looks erases r
  have hlive : g.hasNode ⟨0⟩ = true := by decide +kernel
  have hlooks : looks.Keeps nav (navigation.view g) := fun _ _ _ h => h
  have hgoes : looks.GoesOn { directed := false } := by
    rintro ⟨g, k⟩ n status
    simp only [looks]
    split <;> rfl
  have hvisits : visits r.world.2.toList = [⟨0⟩, ⟨1⟩, ⟨2⟩] := by decide +kernel
  obtain ⟨-, hcomponent, hcount, -, hsize, -⟩ := (breadthFirst_ofHistory_cycles Nat Nat ⟨⟨0⟩⟩ ops
    { directed := false } ⟨0⟩).1 hlive rfl looks hlooks hgoes 0 g.stepBound (Nat.le_refl _)
  obtain ⟨-, hdirected⟩ := breadthFirst_ofHistory_cycles Nat Nat ⟨⟨0⟩⟩ ops {} ⟨0⟩
  have hnone := hdirected rfl erases 20 (g, 0) ⟨0⟩
  have hjoined : (⟨1⟩ : NodeHandle) ∈ g.component ⟨0⟩ := by
    rw [← hcomponent.mem_iff, hvisits]
    decide
  have hb := hcount ⟨1⟩ hjoined
  rw [if_neg (by decide), Nat.add_zero] at hb
  exact ⟨hlive, hlooks, hgoes, hsize, hvisits, by decide +kernel, hb, hnone⟩

end Graph

end Multidigraph
