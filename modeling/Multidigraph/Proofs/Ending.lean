import Mathlib.Order.WellFounded
import Multidigraph.Proofs.Orderly
import Multidigraph.Proofs.Permanence
import Multidigraph.Proofs.Search

namespace Multidigraph

namespace Walk

variable {σ τ γ N ε : Type}

/-- Whether a walk is over from some number of steps on. -/
def Ends (walk : Nat → Report σ N ε) : Prop :=
  ∃ limit, (walk limit).finished = true ∧ ∀ later, limit ≤ later → walk later = walk limit

namespace Course

variable {plan : Plan γ σ N} {visit : Phase → Visitor σ N ε} {heed : Answer ε → Answer ε}
  {flags : Flags} {c : Course γ σ N ε}

theorem iterate_of_finished {limit later : Nat}
    (hend : (iterate (step plan visit heed flags) limit c).finished plan = true)
    (hlater : limit ≤ later) :
    iterate (step plan visit heed flags) later c =
      iterate (step plan visit heed flags) limit c := by
  obtain ⟨k, rfl⟩ := Nat.exists_eq_add_of_le hlater
  rw [iterate_add, iterate_of_none (step_eq_none_iff.mpr hend)]

theorem world_iterate {inv : σ → Prop} (hvisit : ∀ phase w n s, inv w → inv (visit phase w n s).2)
    (hworld : inv c.world) (limit : Nat) :
    inv (iterate (step plan visit heed flags) limit c).world := by
  have hstep : ∀ a b : Course γ σ N ε, inv a.world → step plan visit heed flags a = some b →
      inv b.world := by
    intro a b ha hab
    obtain ⟨-, ⟨next, cycles, -, rfl⟩ | ⟨phase, n, halt, next, -, rfl⟩⟩ := step_eq_some hab
    · exact ha
    · exact hvisit phase a.world n a.status ha
  exact iterate_invariant hstep hworld limit

end Course

section Measure

variable [Ord N] [Std.TransOrd N]

/-- Whether a plan leaves less to do with each move but a first call, which is for a node that was
not visited before. -/
structure Dwindles (nav : Navigation σ N) (visited : γ → Std.ExtTreeSet N) (size : γ → Nat)
    (plan : Plan γ σ N) : Prop where
  drop : ∀ {a w next cycles}, plan a w = some (.drop next cycles) →
    visited next = visited a ∧ size next < size a
  first : ∀ {a w n halt next}, plan a w = some (.call .first n halt next) →
    nav.contains w n = true ∧ n ∉ visited a ∧ ∀ w', visited (next w').1 = (visited a).insert n
  last : ∀ {a w n halt next}, plan a w = some (.call .last n halt next) →
    ∀ w', visited (next w').1 = visited a ∧ size (next w').1 < size a

variable {nav : Navigation σ N} {visited : γ → Std.ExtTreeSet N} {size : γ → Nat}
  {plan : Plan γ σ N} {visit : Phase → Visitor σ N ε} {heed : Answer ε → Answer ε} {flags : Flags}
  {nodes : List N} {c d : Course γ σ N ε}

namespace Course

/-- How many of the nodes can still be visited, and what is to do before the next one is. -/
def rank (visited : γ → Std.ExtTreeSet N) (size : γ → Nat) (nodes : List N)
    (c : Course γ σ N ε) : Nat × Nat :=
  if c.stopped then (0, 0)
  else (DepthFirst.owed (fun _ => 1) nodes (visited c.control) + 1, size c.control)

theorem rank_step (hplan : Dwindles nav visited size plan)
    (hnodes : ∀ m, nav.contains c.world m = true → m ∈ nodes)
    (hstep : c.step plan visit heed flags = some d) :
    Prod.Lex (· < ·) (· < ·) (d.rank visited size nodes) (c.rank visited size nodes) := by
  obtain ⟨hgo, ⟨next, cycles, hmove, rfl⟩ | ⟨phase, n, halt, next, hmove, rfl⟩⟩ :=
    step_eq_some hstep
  · obtain ⟨hvisited, hless⟩ := hplan.drop hmove
    simpa [rank, hgo, Course.drop, hvisited] using Prod.Lex.right _ hless
  · cases hanswer : flags.goesOn (heed (c.event visit phase n).answer) with
    | false =>
      -- the call ends the walk
      have hrank :
          (c.call visit heed flags phase n halt next).rank visited size nodes = (0, 0) := by
        simp [rank, hanswer]
      rw [hrank]
      simpa [rank, hgo] using Prod.Lex.left _ _ (Nat.zero_lt_succ _)
    | true =>
      have hstopped : (c.call visit heed flags phase n halt next).stopped = false := by
        simp [hanswer]
      have hcontrol : (c.call visit heed flags phase n halt next).control = _ :=
        control_call hanswer
      simp only [rank, hgo, hstopped, hcontrol, Bool.false_eq_true, if_false]
      cases phase with
      | first =>
        obtain ⟨hlive, hnew, hvisited⟩ := hplan.first hmove
        have howed := DepthFirst.owed_insert (fun _ => 1) (hnodes n hlive) hnew
        rw [hvisited]
        exact Prod.Lex.left _ _ (by omega)
      | last =>
        obtain ⟨hvisited, hless⟩ := hplan.last hmove (c.event visit .last n).after
        rw [hvisited]
        exact Prod.Lex.right _ hless

theorem exists_finished (hplan : Dwindles nav visited size plan)
    (hnodes : ∀ limit m,
      nav.contains (iterate (step plan visit heed flags) limit c).world m = true → m ∈ nodes) :
    ∃ limit, (iterate (step plan visit heed flags) limit c).finished plan = true := by
  have hstep : ∀ a b, Runs (step plan visit heed flags) c a →
      a.step plan visit heed flags = some b → Runs (step plan visit heed flags) c b ∧
        Prod.Lex (· < ·) (· < ·) (b.rank visited size nodes) (a.rank visited size nodes) := by
    rintro _ b ⟨k, rfl⟩ hab
    exact ⟨Runs.tail ⟨k, rfl⟩ hab, rank_step hplan (hnodes k) hab⟩
  obtain ⟨limit, hend⟩ := exists_step_iterate_eq_none
    (WellFounded.prod_lex Nat.lt_wfRel.wf Nat.lt_wfRel.wf) _ _ hstep (Runs.refl _ c)
  exact ⟨limit, step_eq_none_iff.mp hend⟩

theorem ends_report (hplan : Dwindles nav visited size plan)
    (hnodes : ∀ limit m,
      nav.contains (iterate (step plan visit heed flags) limit c).world m = true → m ∈ nodes)
    (warnings : γ → Array (Warning N)) :
    Ends fun limit =>
      ((iterate (step plan visit heed flags) limit c).report plan warnings).mapWorld Prod.fst := by
  obtain ⟨limit, hend⟩ := exists_finished hplan hnodes
  refine ⟨limit, hend, fun later hlater => ?_⟩
  simp only [iterate_of_finished hend hlater]

end Course

end Measure

section Walks

variable [Ord N] [Std.TransOrd N] {nav : Navigation σ N} {flags : Flags} {world : σ} {start : N}
  {nodes : List N}

namespace DepthFirst

theorem plan_dwindles (nav : Navigation σ N) (flags : Flags) :
    Dwindles nav Agenda.visited (fun a => a.stack.length) (plan nav flags) := by
  constructor
  case drop =>
    intro a w next cycles h
    obtain ⟨n, below, hstack, -, ⟨-, rfl⟩ | ⟨-, -, rfl⟩⟩ := plan_eq_drop h
    all_goals exact ⟨rfl, by simp [Agenda.drop, hstack]⟩
  case first =>
    intro a w n halt next h
    obtain ⟨below, -, hn, hv, rfl, rfl⟩ := plan_eq_first h
    exact ⟨hv, hn, fun w' => rfl⟩
  case last =>
    intro a w n halt next h w'
    obtain ⟨below, hstack, rfl, rfl⟩ := plan_eq_last h
    exact ⟨rfl, by simp [Agenda.leave, hstack]⟩

end DepthFirst

theorem depthFirst_world {inv : σ → Prop} {pre post : Visitor σ N ε}
    (hpre : ∀ w n s, inv w → inv (pre w n s).2) (hpost : ∀ w n s, inv w → inv (post w n s).2)
    (hworld : inv world) (limit : Nat) :
    inv (depthFirst nav pre post flags limit world start).world := by
  rw [depthFirst_eq_report]
  refine Course.world_iterate (fun phase => ?_) hworld limit
  cases phase with
  | first => exact hpre
  | last => exact hpost

open DepthFirst in
theorem depthFirst_ends {pre post : Visitor σ N ε}
    (hnodes : ∀ limit m,
      nav.contains (depthFirst nav pre post flags limit world start).world m = true → m ∈ nodes) :
    Ends fun limit => depthFirst nav pre post flags limit world start := by
  simp only [depthFirst_eq_report] at hnodes ⊢
  exact Course.ends_report (plan_dwindles nav flags) hnodes Agenda.warnings

namespace BreadthFirst

theorem plan_dwindles (nav : Navigation σ N) (flags : Flags) :
    Dwindles nav Agenda.visited (fun a => a.queue.length) (plan nav flags) := by
  constructor
  case drop =>
    intro a w next cycles h
    obtain ⟨n, behind, hqueue, ⟨-, -, rfl⟩ | ⟨-, -, -, rfl⟩⟩ := plan_eq_drop h
    all_goals exact ⟨rfl, by simp [Agenda.drop, hqueue]⟩
  case first =>
    intro a w n halt next h
    obtain ⟨-, behind, -, hn, hv, rfl, rfl⟩ := plan_eq_call h
    exact ⟨hv, hn, fun w' => Agenda.visited_push (nav.view w') flags n⟩
  case last =>
    intro a w n halt next h
    cases (plan_eq_call h).1

end BreadthFirst

theorem breadthFirst_world {inv : σ → Prop} {visit : Visitor σ N ε}
    (hvisit : ∀ w n s, inv w → inv (visit w n s).2) (hworld : inv world) (limit : Nat) :
    inv (breadthFirst nav visit flags limit world start).world := by
  rw [breadthFirst_eq_report]
  exact Course.world_iterate (fun _ => hvisit) hworld limit

open BreadthFirst in
theorem breadthFirst_ends {visit : Visitor σ N ε}
    (hnodes : ∀ limit m,
      nav.contains (breadthFirst nav visit flags limit world start).world m = true → m ∈ nodes) :
    Ends fun limit => breadthFirst nav visit flags limit world start := by
  simp only [breadthFirst_eq_report] at hnodes ⊢
  exact Course.ends_report (plan_dwindles nav flags) hnodes Agenda.warnings

end Walks

end Walk

namespace Outcome

variable {α : Type} {f : α → Outcome} {x : EntityHandle}

theorem exists_of_handle?_ofExcept {r : Except GraphError α}
    (h : (ofExcept f r).handle? = some x) : ∃ a, (f a).handle? = some x := by
  cases r with
  | ok a => exact ⟨a, h⟩
  | error e => cases h

theorem exists_of_handle?_ofOption {r : Option α} (h : (ofOption f r).handle? = some x) :
    ∃ a, (f a).handle? = some x := by
  cases r with
  | some a => exact ⟨a, h⟩
  | none => cases h

end Outcome

namespace Operation

variable {g : Graph}

def makesNode : Operation → Bool
  | putNode _ _ => true
  | freshNode _ _ => true
  | _ => false

theorem makesNode_of_handle? {op : Operation} {h : NodeHandle}
    (hh : (op.apply g).1.handle? = some (.node h)) : op.makesNode = true := by
  cases op with
  | putNode | freshNode => rfl
  | putEdge | eraseNode | eraseEdge | updateNode | updateEdge =>
    obtain ⟨_, hanswer⟩ := Outcome.exists_of_handle?_ofExcept hh
    cases hanswer
  | freshEdge =>
    obtain ⟨_, hdrawn⟩ := Outcome.exists_of_handle?_ofExcept hh
    obtain ⟨_, hanswer⟩ := Outcome.exists_of_handle?_ofOption hdrawn
    cases hanswer
  | editNode | editEdge =>
    obtain ⟨_, hanswer⟩ := Outcome.exists_of_handle?_ofOption hh
    cases hanswer
  | clear | clone => cases hh

theorem nodeSlots_size_apply (hg : g.WellFormed) {op : Operation} (hop : op.makesNode = false) :
    (op.apply g).2.nodeSlots.size = g.nodeSlots.size := by
  refine Nat.le_antisymm (Nat.le_of_not_lt fun hlt => ?_) (op.apply_ages g).nodes.size_le
  have hanswer := (apply_issues hg op).filled (.node g.nextNode) (Nat.lt_irrefl _) hlt
  rw [makesNode_of_handle? hanswer] at hop
  cases hop

theorem nodeSlots_size_run (hg : g.WellFormed) {ops : List Operation}
    (hops : ∀ op ∈ ops, op.makesNode = false) :
    (run ops g).2.nodeSlots.size = g.nodeSlots.size := by
  induction ops generalizing g with
  | nil => rfl
  | cons op ops ih =>
    obtain ⟨hop, hops⟩ := List.forall_mem_cons.mp hops
    exact (ih (apply_wellFormed hg op) hops).trans (nodeSlots_size_apply hg hop)

end Operation

namespace Walk

open Multidigraph.Graph

theorem mem_of_size_le {g : Graph} {bound : Nat} (hsize : g.nodeSlots.size ≤ bound)
    {m : NodeHandle} (hm : g.hasNode m = true) : m ∈ (List.range bound).map NodeHandle.mk := by
  have hlt : m.slot < bound := Nat.lt_of_lt_of_le (issued_of_hasNode hm) hsize
  exact List.mem_map.mpr ⟨m.slot, List.mem_range.mpr hlt, rfl⟩

section MakesNone

variable {κ ε : Type} {pre post visit : Visitor (Graph × κ) NodeHandle ε} {flags : Flags}
  {world : Graph × κ} {start : NodeHandle}

/-- Whether a visitor changes the graph through operations that put no node into it. -/
def Visitor.MakesNone (visit : Visitor (Graph × κ) NodeHandle ε) : Prop :=
  ∀ world n status, ∃ ops : List Operation, (∀ op ∈ ops, op.makesNode = false) ∧
    (visit world n status).2.1 = (Operation.run ops world.1).2

theorem Visitor.MakesNone.size_le (h : visit.MakesNone) {bound : Nat} (w : Graph × κ)
    (n : NodeHandle) (s : Status NodeHandle ε)
    (hw : w.1.WellFormed ∧ w.1.nodeSlots.size ≤ bound) :
    (visit w n s).2.1.WellFormed ∧ (visit w n s).2.1.nodeSlots.size ≤ bound := by
  obtain ⟨ops, hops, hafter⟩ := h w n s
  rw [hafter, Operation.nodeSlots_size_run hw.1 hops]
  exact ⟨Operation.run_wellFormed hw.1 ops, hw.2⟩

theorem depthFirst_size_le (hpre : pre.MakesNone) (hpost : post.MakesNone)
    (hworld : world.1.WellFormed) (limit : Nat) :
    (depthFirst (navigation.comap Prod.fst) pre post flags limit world
      start).world.1.nodeSlots.size ≤ world.1.nodeSlots.size :=
  (depthFirst_world hpre.size_le hpost.size_le ⟨hworld, Nat.le_refl _⟩ limit).2

theorem breadthFirst_size_le (hvisit : visit.MakesNone) (hworld : world.1.WellFormed)
    (limit : Nat) :
    (breadthFirst (navigation.comap Prod.fst) visit flags limit world
      start).world.1.nodeSlots.size ≤ world.1.nodeSlots.size :=
  (breadthFirst_world hvisit.size_le ⟨hworld, Nat.le_refl _⟩ limit).2

end MakesNone

/-- Both walks end, whatever their visitors do to the edges, and whatever nodes they take away and
bring back, if all nodes that the worlds of the walk ever contain are in one list. In a graph that
is so if only so many nodes are ever put into it. -/
theorem walks_end (κ ε : Type) {σ N : Type} [Ord N] [Std.TransOrd N] (nav : Navigation σ N)
    (flags : Flags) :
    (∀ (pre post : Visitor σ N ε) (world : σ) (start : N) (nodes : List N),
      let walk := fun limit => depthFirst nav pre post flags limit world start
      (∀ limit m, nav.contains (walk limit).world m = true → m ∈ nodes) → Ends walk) ∧
    (∀ (visit : Visitor σ N ε) (world : σ) (start : N) (nodes : List N),
      let walk := fun limit => breadthFirst nav visit flags limit world start
      (∀ limit m, nav.contains (walk limit).world m = true → m ∈ nodes) → Ends walk) ∧
    (∀ (pre post : Visitor (Graph × κ) NodeHandle ε) (world : Graph × κ) (start : NodeHandle)
        (bound : Nat),
      let walk := fun limit =>
        depthFirst (navigation.comap Prod.fst) pre post flags limit world start
      (∀ limit, (walk limit).world.1.nodeSlots.size ≤ bound) → Ends walk) ∧
    (∀ (visit : Visitor (Graph × κ) NodeHandle ε) (world : Graph × κ) (start : NodeHandle)
        (bound : Nat),
      let walk := fun limit =>
        breadthFirst (navigation.comap Prod.fst) visit flags limit world start
      (∀ limit, (walk limit).world.1.nodeSlots.size ≤ bound) → Ends walk) := by
  refine ⟨?_, ?_, ?_, ?_⟩
  · intro pre post world start nodes walk hnodes
    exact depthFirst_ends hnodes
  · intro visit world start nodes walk hnodes
    exact breadthFirst_ends hnodes
  · intro pre post world start bound walk hsize
    exact depthFirst_ends fun limit m hm => mem_of_size_le (hsize limit) hm
  · intro visit world start bound walk hsize
    exact breadthFirst_ends fun limit m hm => mem_of_size_le (hsize limit) hm

/-- Each call leads to another world, with other nodes and other edges; in the graph each call adds
edges and takes one away. -/
theorem walks_end_churn :
    let nav : Navigation Nat Nat :=
      ⟨fun w n => n < 4 && (w + n) % 3 != 0, fun w n => [some (w + n), none, some (w * n % 4)],
        fun w n => List.replicate w (some ((n + 1) % 4))⟩
    let age : Visitor Nat Nat Nat := fun w _ _ => (if w % 2 = 0 then .proceed else .fail w, w + 1)
    let changes : Nat → NodeHandle → List Operation := fun k n =>
      [.putEdge .default (toString k) "" n ⟨k % 3⟩, .putEdge .default (toString (k + 100)) "" n n,
        .eraseEdge ⟨k⟩, .eraseNode ⟨3⟩]
    let carry : (Nat → NodeHandle → List Operation) → Visitor (Graph × Nat) NodeHandle Nat :=
      fun changes (g, k) n _ => (.proceed, (Operation.run (changes k n) g).2, k + 1)
    let visit := carry changes
    let world := (ofHistory ⟨⟨0⟩⟩ [.putNode "a" "", .putNode "b" "", .putNode "c" "",
      .putNode "d" "", .putEdge .default "ab" "" ⟨0⟩ ⟨1⟩, .putEdge .default "ad" "" ⟨0⟩ ⟨3⟩], 0)
    let flags : Flags := { directed := false }
    Ends (fun limit => depthFirst nav age age flags limit 1 0) ∧
      Ends (fun limit => breadthFirst nav age flags limit 1 0) ∧
      Ends (fun limit =>
        depthFirst (navigation.comap Prod.fst) visit visit flags limit world ⟨0⟩) ∧
      Ends (fun limit =>
        breadthFirst (navigation.comap Prod.fst) visit flags limit world ⟨0⟩) := by
  intro nav age changes carry visit world flags
  obtain ⟨hdeep, hbroad, hdeepGraph, hbroadGraph⟩ := walks_end Nat Nat nav flags
  have hnodes : ∀ w m, nav.contains w m = true → m ∈ [0, 1, 2, 3] := by
    intro w m hm
    have hlt : m < 4 := of_decide_eq_true (Bool.and_eq_true_iff.mp hm).1
    simp only [List.mem_cons, List.not_mem_nil]
    omega
  have hcarry : ∀ changes, (∀ k n, ∀ op ∈ changes k n, op.makesNode = false) →
      (carry changes).MakesNone := fun changes hnone (_, k) n _ => ⟨changes k n, hnone k n, rfl⟩
  have hvisit : visit.MakesNone := hcarry changes (by simp [changes, Operation.makesNode])
  have hworld : world.1.WellFormed := ofHistory_wellFormed _ _
  exact ⟨hdeep age age 1 0 _ fun limit => hnodes _, hbroad age 1 0 _ fun limit => hnodes _,
    hdeepGraph visit visit world ⟨0⟩ _ fun limit => depthFirst_size_le hvisit hvisit hworld limit,
    hbroadGraph visit world ⟨0⟩ _ fun limit => breadthFirst_size_le hvisit hworld limit⟩

end Walk

end Multidigraph
