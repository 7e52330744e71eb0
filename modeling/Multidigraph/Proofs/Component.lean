import Mathlib.Logic.Relation
import Multidigraph.Proofs.BackEdges
import Multidigraph.Proofs.Reachability

open Relation

namespace Multidigraph

theorem countP_add_countP_of_cover {α : Type} {p q : α → Bool} (both : α → Bool) {xs : List α}
    (hcover : ∀ x ∈ xs, p x = true ∨ q x = true)
    (hboth : ∀ x ∈ xs, both x = true ↔ p x = true ∧ q x = true) :
    xs.countP p + xs.countP q = xs.countP (fun x => !both x) + 2 * xs.countP both := by
  induction xs with
  | nil => rfl
  | cons x xs ih =>
    have hrest := ih (fun y hy => hcover y (List.mem_cons_of_mem x hy))
      fun y hy => hboth y (List.mem_cons_of_mem x hy)
    have hx := hcover x List.mem_cons_self
    have hx' := hboth x List.mem_cons_self
    simp only [List.countP_cons]
    cases hp : p x <;> cases hq : q x <;> cases hb : both x <;> simp_all <;> omega

namespace Graph

open Walk DepthFirst

variable {g : Graph} {flags : Flags} {h : NodeHandle}

open Classical in
/-- The live nodes that are joined to a node, whichever way the edges between them run. -/
noncomputable def component (g : Graph) (h : NodeHandle) : List NodeHandle :=
  g.handles.filter fun m => g.hasNode m ∧ EqvGen g.Adj h m

open Classical in
/-- The live edges between the nodes that are joined to a node, oldest first. -/
noncomputable def componentEdges (g : Graph) (h : NodeHandle) : List Edge :=
  g.edgeSlots.toList.filter fun e => EqvGen g.Adj h e.source

theorem mem_component_iff {m : NodeHandle} :
    m ∈ g.component h ↔ g.hasNode m = true ∧ EqvGen g.Adj h m := by
  simp only [component, List.mem_filter, decide_eq_true_iff, and_iff_right_iff_imp]
  exact fun hm => mem_handles_of_hasNode hm.1

theorem nodup_component (g : Graph) (h : NodeHandle) : (g.component h).Nodup := by
  refine List.Nodup.filter _ (List.Nodup.map ?_ List.nodup_range)
  intro i j hij
  exact congrArg NodeHandle.slot hij

theorem mem_componentEdges_iff {e : Edge} :
    e ∈ g.componentEdges h ↔ e ∈ g.edgeSlots.toList ∧ EqvGen g.Adj h e.source := by
  simp only [componentEdges, List.mem_filter, decide_eq_true_iff]

theorem reflTransGen_joined (hflags : flags.directed = false) :
    ReflTransGen (g.Joined flags) = EqvGen g.Adj := by
  have hjoined : g.Joined flags = SymmGen g.Adj := by
    ext a b
    simp only [Joined, hflags, true_and]
    rfl
  rw [hjoined, EqvGen.reflTransGen_symmGen]

theorem neighbours_undirected (hflags : flags.directed = false) (a : NodeHandle) :
    (navigation.view g).neighbours flags a = g.predecessors a ++ g.successors a := by
  simp only [View.neighbours_eq, Navigation.view, hflags, Bool.false_eq_true, if_false,
    resolved_incoming, resolved_outgoing]

theorem WellFormed.perm_component (hg : g.WellFormed) (hflags : flags.directed = false)
    {order : List NodeHandle} (hnodup : order.Nodup)
    (hmem : ∀ m, m ∈ order ↔ (navigation.view g).contains m = true ∧
      ReflTransGen ((navigation.view g).Leads flags) h m) : order.Perm (g.component h) := by
  refine (List.perm_ext_iff_of_nodup hnodup (g.nodup_component h)).mpr fun m => ?_
  rw [hmem, hg.leads_eq_joined, reflTransGen_joined hflags, mem_component_iff]
  rfl

section Ends

variable {e : Edge}

theorem WellFormed.ends_mem_component_iff (hg : g.WellFormed) (he : e ∈ g.edgeSlots.toList) :
    (e.source ∈ g.component h ↔ EqvGen g.Adj h e.source) ∧
      (e.destination ∈ g.component h ↔ EqvGen g.Adj h e.source) := by
  obtain ⟨k, hk⟩ := exists_edge?_of_mem he
  have hadj : g.Adj e.source e.destination := ⟨k, e, hk, rfl, rfl⟩
  obtain ⟨hsource, hdestination⟩ := hadj.hasNode hg
  rw [mem_component_iff, mem_component_iff, and_iff_right hsource, and_iff_right hdestination]
  refine ⟨Iff.rfl, fun hd => ?_, fun hs => ?_⟩
  · exact hd.trans _ _ _ (.symm _ _ (.rel _ _ hadj))
  · exact hs.trans _ _ _ (.rel _ _ hadj)

theorem WellFormed.ends_mem_component (hg : g.WellFormed) (he : e ∈ g.componentEdges h) :
    e.source ∈ g.component h ∧ e.destination ∈ g.component h := by
  obtain ⟨he, hjoined⟩ := mem_componentEdges_iff.mp he
  have hends := hg.ends_mem_component_iff (h := h) he
  exact ⟨hends.1.mpr hjoined, hends.2.mpr hjoined⟩

theorem filter_componentEdges {near : Edge → NodeHandle} (p : Edge → Prop) [DecidablePred p]
    (hnear : ∀ e ∈ g.edgeSlots.toList, near e ∈ g.component h ↔ EqvGen g.Adj h e.source) :
    ((g.componentEdges h).filter fun e => p e) =
      g.edgeSlots.toList.filter fun e => near e ∈ g.component h ∧ p e := by
  rw [componentEdges, List.filter_filter]
  refine List.filter_congr fun e he => ?_
  rw [Bool.decide_and, Bool.and_comm, decide_eq_decide.mpr (hnear e he)]

end Ends

section Order

variable {order : List NodeHandle}

theorem WellFormed.flatMap_neighbours_perm (hg : g.WellFormed) (hflags : flags.directed = false)
    (horder : order.Perm (g.component h)) (p : NodeHandle → NodeHandle → Prop) [DecidableRel p] :
    (order.flatMap fun a => ((navigation.view g).neighbours flags a).filter fun b => p a b).Perm
      (((g.componentEdges h).filter fun e => p e.destination e.source).map Edge.source ++
        ((g.componentEdges h).filter fun e => p e.source e.destination).map Edge.destination) := by
  have hnodup : order.Nodup := horder.nodup_iff.mpr (g.nodup_component h)
  simp only [neighbours_undirected hflags, hg.predecessors_eq, hg.successors_eq,
    List.filter_append]
  rw [filter_componentEdges (fun e => p e.destination e.source) fun e he =>
      (hg.ends_mem_component_iff he).2,
    filter_componentEdges (fun e => p e.source e.destination) fun e he =>
      (hg.ends_mem_component_iff he).1]
  simp only [← horder.mem_iff]
  refine (List.flatMap_append_perm _ _ _).symm.trans (.append ?_ ?_)
  · exact flatMap_ends_perm hnodup Edge.destination Edge.source p _
  · exact flatMap_ends_perm hnodup Edge.source Edge.destination p _

theorem WellFormed.length_behind (hg : g.WellFormed) (hflags : flags.directed = false)
    (horder : order.Perm (g.component h)) :
    ((navigation.view g).behind flags ∅ order).length =
      (g.componentEdges h).countP (fun e => e.source ≠ e.destination) +
        2 * (g.componentEdges h).countP (fun e => e.source = e.destination) := by
  have hnodup : order.Nodup := horder.nodup_iff.mpr (g.nodup_component h)
  have hclosed : ∀ a ∈ order, ∀ b ∈ (navigation.view g).neighbours flags a, b ∈ order := by
    intro a ha b hb
    have hjoined : g.Joined flags a b := hg.mem_neighbours_iff.mp hb
    rw [horder.mem_iff, mem_component_iff, ← reflTransGen_joined hflags] at ha ⊢
    exact ⟨(hjoined.hasNode hg).2, ha.2.tail hjoined⟩
  rw [View.behind_eq_flatMap hnodup hclosed,
    (hg.flatMap_neighbours_perm hflags horder
      fun a b => ¬ order.idxOf b < order.idxOf a).length_eq]
  simp only [List.length_append, List.length_map, ← List.countP_eq_length_filter]
  rw [countP_add_countP_of_cover fun e => e.source = e.destination]
  · simp
  · intro e _
    simp only [decide_eq_true_iff]
    omega
  · intro e he
    have hsource : e.source ∈ order := horder.mem_iff.mpr (hg.ends_mem_component he).1
    have hidx : e.source = e.destination ↔ order.idxOf e.source = order.idxOf e.destination :=
      (List.idxOf_inj hsource).symm
    simp only [decide_eq_true_iff, hidx]
    omega

end Order

/-- A depth-first walk that goes both ways, that only looks and that no call ends, finds one cycle
for each edge between the nodes that are joined to its start, and two for each edge from one of them
to itself. -/
theorem depthFirst_ofHistory_cycles (κ ε : Type) (id : GraphId) (ops : List Operation)
    (flags : Flags) (h : NodeHandle) :
    let g := ofHistory id ops
    let nav : Navigation (Graph × κ) NodeHandle := navigation.comap Prod.fst
    g.hasNode h = true → flags.directed = false → ∀ pre post : Visitor (Graph × κ) NodeHandle ε,
      pre.Keeps nav (navigation.view g) → post.Keeps nav (navigation.view g) →
        pre.GoesOn flags → post.GoesOn flags → ∀ k limit, g.stepBound ≤ limit →
          let r := depthFirst nav pre post flags limit (g, k) h
          r.finished = true ∧
            r.status.cycles.size =
              (g.componentEdges h).countP (fun e => e.source ≠ e.destination) +
                2 * (g.componentEdges h).countP (fun e => e.source = e.destination) := by
  intro g nav hh hflags pre post hpre hpost hpregoes hpostgoes k limit hlimit r
  have hg : g.WellFormed := ofHistory_wellFormed id ops
  obtain ⟨order, q, hq, hruns⟩ := depthFirst_explores nav (g, k) hpre hpost
    (fun _ => mem_handles_of_hasNode (g := g)) flags h
  have hr : r = q.report := hruns limit (Nat.le_trans (g.pushes_le_stepBound flags) hlimit)
  have hgo : q.stopped = false := hq.stopped_of_goesOn hpregoes hpostgoes rfl
  have horder : order.Perm (g.component h) :=
    hg.perm_component hflags (hq.nodup_left hgo) (hq.mem_left_iff_reaches hgo hh)
  rw [hr]
  refine ⟨rfl, ?_⟩
  rw [← hg.length_behind hflags horder, ← Array.length_toList]
  have hcycles := (hq.cycles_perm hgo (by simp)).length_eq
  rw [List.length_append] at hcycles
  exact hcycles.trans (Nat.zero_add _)

/-- Two nodes with two edges one way and one the other way, a loop, and a node that leads to both;
two more nodes have edges that are not joined to these. Every second call of the visitor fails. -/
theorem depthFirst_ofHistory_cycles_pair :
    let ops : List Operation := [.putNode "a" "", .putNode "b" "", .putNode "c" "",
      .putNode "d" "", .putNode "e" "", .putEdge .default "ab" "" ⟨0⟩ ⟨1⟩,
      .putEdge .default "ab2" "" ⟨0⟩ ⟨1⟩, .putEdge .default "ba" "" ⟨1⟩ ⟨0⟩,
      .putEdge .default "bb" "" ⟨1⟩ ⟨1⟩, .putEdge .default "ca" "" ⟨2⟩ ⟨0⟩,
      .putEdge .default "cb" "" ⟨2⟩ ⟨1⟩, .putEdge .default "de" "" ⟨3⟩ ⟨4⟩,
      .putEdge .default "dd" "" ⟨3⟩ ⟨3⟩]
    let g := ofHistory ⟨⟨0⟩⟩ ops
    let flags : Flags := { directed := false }
    let nav : Navigation (Graph × Nat) NodeHandle := navigation.comap Prod.fst
    let visit : Visitor (Graph × Nat) NodeHandle Nat := fun (g, k) _ _ =>
      (if k % 2 = 0 then .proceed else .fail k, g, k + 1)
    let r := depthFirst nav visit pass flags g.stepBound (g, 0) ⟨0⟩
    g.hasNode ⟨0⟩ = true ∧ visit.Keeps nav (navigation.view g) ∧ visit.GoesOn flags ∧
      r.finished = true ∧ r.status.cycles.size = 7 ∧
      (g.componentEdges ⟨0⟩).countP (fun e => e.source ≠ e.destination) +
        2 * (g.componentEdges ⟨0⟩).countP (fun e => e.source = e.destination) = 7 := by
  intro ops g flags nav visit r
  have hlive : g.hasNode ⟨0⟩ = true := by decide +kernel
  have hvisit : visit.Keeps nav (navigation.view g) := fun _ _ _ h => h
  have hgoes : visit.GoesOn flags := by
    rintro ⟨g, k⟩ n status
    simp only [visit]
    split <;> rfl
  have hsize : r.status.cycles.size = 7 := by decide +kernel
  obtain ⟨hfinished, hcount⟩ := depthFirst_ofHistory_cycles Nat Nat ⟨⟨0⟩⟩ ops flags ⟨0⟩ hlive rfl
    visit pass hvisit (pass_keeps nav _) hgoes (fun _ _ _ => rfl) 0 g.stepBound (Nat.le_refl _)
  exact ⟨hlive, hvisit, hgoes, hfinished, hsize, hcount.symm.trans hsize⟩

end Graph

end Multidigraph
