import Mathlib.Data.List.Cycle
import Multidigraph.Proofs.Reachability

open Relation

namespace Multidigraph

namespace Walk

variable {σ N ε : Type}

namespace DepthFirst

section Prefix

variable [Ord N] [Std.TransOrd N] {nav : Navigation σ N} {pre post : Visitor σ N ε} {flags : Flags}

theorem Progress.cycles_prefix_enter (v : View N) (path : Std.ExtTreeSet N) (n : N)
    (p : Progress σ N ε) :
    p.status.cycles.toList <+: (p.enter v pre flags path n).status.cycles.toList := by
  rw [cycles_enter]
  exact List.prefix_append _ _

theorem cycles_prefix_step {s t : State σ N ε} (h : step nav pre post flags s = some t) :
    s.status.cycles.toList <+: t.status.cycles.toList := by
  obtain ⟨p, stack, path, rfl⟩ := s.exists_progress
  cases hp : p.stopped with
  | true => rw [step_stopped hp] at h; cases h
  | false =>
    cases stack with
    | nil => rw [step_nil rfl] at h; cases h
    | cons frame below =>
      cases frame with
      | entered n =>
        rw [step_entered hp] at h
        cases h
        change _ <+: (p.call post flags n).status.cycles.toList
        rw [Progress.cycles_call]
        exact List.prefix_rfl
      | pending n =>
        by_cases hn : n ∈ p.visited
        · rw [step_seen hp hn] at h
          cases h
          exact List.prefix_rfl
        cases hv : nav.contains p.world n with
        | false =>
          rw [step_absent hp hn hv] at h
          cases h
          exact List.prefix_rfl
        | true =>
          rw [step_pending post below path rfl hp hn hv] at h
          cases h
          exact Progress.cycles_prefix_enter _ _ n p

theorem step_untilCycle (s : State σ N Empty) :
    step nav untilCycle pass flags s = step nav pass pass flags s ∨
      s.status.hasCycles = true ∧ ∃ t, step nav untilCycle pass flags s = some t ∧
        t.stopped = true ∧ t.status = s.status := by
  obtain ⟨world, stack, visited, path, status, warnings, stopped⟩ := s
  unfold step
  split
  · exact .inl rfl
  · cases stack with
    | nil => exact .inl rfl
    | cons frame below =>
      cases frame with
      | entered n => exact .inl rfl
      | pending n =>
        dsimp only
        split
        · exact .inl rfl
        · split
          · cases hc : status.hasCycles with
            | false =>
              have hcall : untilCycle world n status = pass world n status := by
                simp [untilCycle, pass, hc]
              exact .inl (by simp only [enter, hcall])
            | true =>
              exact .inr ⟨rfl, _, rfl, by simp [enter, untilCycle, hc, Flags.goesOn, Status.note]⟩
          · exact .inl rfl

/-- Whether one walk has gone the way of another, all along or until it stopped with a cycle
found. -/
inductive GoesAlong (s t : State σ N ε) : Prop
  | same (h : s = t)
  | stopped (hs : s.stopped = true) (hcycles : s.status.hasCycles = true)
      (hgrows : s.status.cycles.toList <+: t.status.cycles.toList)

theorem cycles_prefix_getD (s : State σ N ε) :
    s.status.cycles.toList <+: ((step nav pre post flags s).getD s).status.cycles.toList := by
  cases h : step nav pre post flags s with
  | none => exact List.prefix_rfl
  | some t => exact cycles_prefix_step h

theorem GoesAlong.step {s t : State σ N Empty} (h : GoesAlong s t) :
    GoesAlong ((step nav untilCycle pass flags s).getD s)
      ((step nav pass pass flags t).getD t) := by
  cases h with
  | stopped hs hcycles hgrows =>
    rw [step_stopped hs]
    exact .stopped hs hcycles (hgrows.trans (cycles_prefix_getD t))
  | same h =>
    subst h
    obtain heq | ⟨hcycles, t, ht, hstop, hstatus⟩ := step_untilCycle s
    · exact .same (by rw [heq])
    · rw [ht, Option.getD_some]
      refine .stopped hstop (by rwa [hstatus]) ?_
      rw [hstatus]
      exact cycles_prefix_getD s

omit [Std.TransOrd N] in
theorem GoesAlong.head?_cycles {s t : State σ N ε} (h : GoesAlong s t) :
    s.status.firstCycle? = t.status.cycles.toList.head? := by
  have hfirst : s.status.firstCycle? = s.status.cycles.toList.head? := by
    simp [Status.firstCycle?, List.head?_eq_getElem?]
  rw [hfirst]
  cases h with
  | same h => rw [h]
  | stopped hs hcycles hgrows =>
    obtain ⟨rest, hrest⟩ := hgrows
    obtain ⟨c, hc⟩ := s.status.hasCycles_iff.mp hcycles
    have hne : s.status.cycles.toList ≠ [] := List.ne_nil_of_mem (Array.mem_toList_iff.mpr hc)
    rw [← hrest, List.head?_append_of_ne_nil _ hne]

end Prefix

end DepthFirst

open DepthFirst in
theorem firstCycle?_eq_head?_allCycles [Ord N] [Std.TransOrd N] (nav : Navigation σ N)
    (limit : Nat) (world : σ) (n : N) :
    firstCycle? nav limit world n = (allCycles nav limit world n).head? := by
  have halong : GoesAlong
      (iterate (step nav untilCycle pass {}) limit (start world n))
      (iterate (step nav pass pass {}) limit (start world n)) :=
    iterate_relation (fun _ _ => GoesAlong.step) (.same rfl) limit
  exact halong.head?_cycles

theorem chain_imp_of_mem {r s : N → N → Prop} {c : Cycle N}
    (h : ∀ a ∈ c, ∀ b ∈ c, r a b → s a b) (hc : c.Chain r) : c.Chain s := by
  induction c with
  | nil => exact .nil s
  | cons a ns =>
    rw [Cycle.chain_coe_cons] at hc ⊢
    refine hc.imp_of_mem_imp fun x y hx hy hxy => h x ?_ y ?_ hxy
    · simpa [or_comm, or_left_comm] using hx
    · simpa [or_comm, or_left_comm] using hy

theorem DepthFirst.Explores.stopped_of_goesOn [Ord N] [Std.TransOrd N] {v : View N}
    {pre post : Visitor σ N ε} {flags : Flags} {path : Std.ExtTreeSet N} {p q : Progress σ N ε}
    {ns left : List N} (h : Explores v pre post flags path p ns left q)
    (hpre : pre.GoesOn flags) (hpost : post.GoesOn flags) (hp : p.stopped = false) :
    q.stopped = false := by
  have hcall : ∀ {visit : Visitor σ N ε}, visit.GoesOn flags → ∀ (p : Progress σ N ε) n,
      (p.call visit flags n).stopped = false := by
    intro visit hvisit p n
    simp [Progress.call_eq, hvisit p.world n p.status]
  induction h with
  | halt | nil => exact hp
  | seen _ _ _ ih | absent _ _ _ _ ih => exact ih hp
  | cut _ _ _ _ _ ih => exact ih (by rw [Progress.stopped_enter, hcall hpre])
  | visit _ _ _ _ _ _ _ ihrest => exact ihrest (hcall hpost _ _)

open DepthFirst in
/-- Each cycle that can be reached goes through a node at which one is found. -/
theorem DepthFirst.Explores.exists_mem_cycles [Ord N] [Std.TransOrd N] [Std.LawfulEqOrd N]
    {v : View N} {pre post : Visitor σ N ε} {flags : Flags} {world : σ} {q : Progress σ N ε} {n : N}
    {left : List N} (h : Explores v pre post flags ∅ (.start world) [n] left q)
    (hq : q.stopped = false) (hn : v.contains n = true) {c : Cycle N} (hne : c ≠ .nil)
    (hc : c.Chain (v.Leads flags)) {a : N} (ha : a ∈ c)
    (hreach : ReflTransGen (v.Leads flags) n a) : ∃ b ∈ c, b ∈ q.status.cycles := by
  classical
  have hways : ∀ a ∈ c, ∀ b ∈ c, TransGen (v.Leads flags) a b :=
    Cycle.chain_iff_pairwise.mp (hc.imp fun _ _ => .single)
  have hlive : ∀ b ∈ c, v.contains b = true := by
    intro b hb
    obtain ⟨_, hstep, -⟩ := TransGen.head'_iff.mp (hways b hb b hb)
    exact hstep.1
  have hleft : ∀ b ∈ c, b ∈ left := fun b hb =>
    (h.mem_left_iff_reaches hq hn b).mpr
      ⟨hlive b hb, hreach.trans (hways a ha b hb).to_reflTransGen⟩
  by_contra hno
  push Not at hno
  -- around the cycle each node would have been left before the one that leads to it
  have hdown : c.Chain fun a b => left.idxOf a > left.idxOf b :=
    chain_imp_of_mem (fun a ha b hb hab =>
      h.idxOf_lt_of_leads hq (by simp) (hleft a ha) (hleft b hb) hab (hlive b hb) (hno b hb)) hc
  have hnil := ((Cycle.chain_map left.idxOf).mpr hdown).eq_nil_of_irrefl
  exact hne ((Cycle.map_eq_nil _ c).mp hnil)

end Walk

namespace Graph

open Walk DepthFirst

variable {g : Graph}

theorem hasNode_of_reaches (hg : g.WellFormed) {h a b : NodeHandle}
    (hreach : ReflTransGen g.Adj h a) (hab : g.Adj a b) : g.hasNode h = true := by
  obtain rfl | ⟨_, hstep, -⟩ := hreach.cases_head
  · exact (hab.hasNode hg).1
  · exact (hstep.hasNode hg).1

theorem allCycles_explores (g : Graph) (h : NodeHandle) :
    ∃ q, Explores (navigation.view g) pass collect {} ∅ (.start (g, #[])) [h]
      (g.topologicalOrder h) q ∧ q.stopped = false ∧ g.allCycles h = q.status.cycles.toList := by
  obtain ⟨left, q, hq, rfl, hcycles⟩ := g.order_and_cycles_explores h
  exact ⟨q, hq, hq.stopped_of_goesOn (fun _ _ _ => rfl) (fun _ _ _ => rfl) rfl, hcycles⟩

/-- Cycles are found at nodes that can be reached and lie on one, and each cycle that can be reached
goes through such a node. The search that stops early finds the first. -/
theorem allCycles_ofHistory (id : GraphId) (ops : List Operation) (h : NodeHandle) :
    let g := ofHistory id ops
    (∀ n ∈ g.allCycles h, ReflTransGen g.Adj h n ∧ TransGen g.Adj n n) ∧
    (∀ c : Cycle NodeHandle, c ≠ .nil → c.Chain g.Adj → (∃ n ∈ c, ReflTransGen g.Adj h n) →
      ∃ n ∈ c, n ∈ g.allCycles h) ∧
    g.firstCycle? h = (g.allCycles h).head? := by
  intro g
  have hg : g.WellFormed := ofHistory_wellFormed id ops
  obtain ⟨q, hq, hgo, hcycles⟩ := g.allCycles_explores h
  rw [hcycles]
  refine ⟨fun n hn => ?_, ?_, ?_⟩
  · obtain hstart | ⟨hcyclic, k, hk, hreach⟩ :=
      hq.cyclic_of_mem_cycles (by simp) (Array.mem_toList_iff.mp hn)
    · simp [Progress.start] at hstart
    · rw [hg.leads_eq] at hcyclic hreach
      rw [List.mem_singleton.mp hk] at hreach
      exact ⟨hreach, hcyclic⟩
  · rintro c hne hc ⟨n, hn, hreach⟩
    obtain ⟨_, hstep, -⟩ := TransGen.head'_iff.mp
      (Cycle.chain_iff_pairwise.mp (hc.imp fun _ _ => TransGen.single) n hn n hn)
    have hh := hasNode_of_reaches hg hreach hstep
    rw [← hg.leads_eq] at hc hreach
    obtain ⟨m, hm, hfound⟩ := hq.exists_mem_cycles hgo hh hne hc hn hreach
    exact ⟨m, hm, Array.mem_toList_iff.mpr hfound⟩
  · rw [← hcycles]
    exact firstCycle?_eq_head?_allCycles navigation g.stepBound g h

/-- Three nodes in a row with edges there and back, one of them twice, and a loop at the last. -/
theorem allCycles_ofHistory_chain :
    let ops : List Operation := [.putNode "a" "", .putNode "b" "", .putNode "c" "",
      .putEdge .default "ab" "" ⟨0⟩ ⟨1⟩, .putEdge .default "ba" "" ⟨1⟩ ⟨0⟩,
      .putEdge .default "bc" "" ⟨1⟩ ⟨2⟩, .putEdge .default "cb" "" ⟨2⟩ ⟨1⟩,
      .putEdge .default "cc" "" ⟨2⟩ ⟨2⟩, .putEdge .default "bc'" "" ⟨2⟩ ⟨1⟩]
    let g := ofHistory ⟨⟨0⟩⟩ ops
    let c : Cycle NodeHandle := ([⟨1⟩, ⟨2⟩] : List NodeHandle)
    c ≠ .nil ∧ c.Chain g.Adj ∧ (∃ n ∈ c, ReflTransGen g.Adj ⟨0⟩ n) ∧
      (∃ n ∈ c, n ∈ g.allCycles ⟨0⟩) ∧ g.firstCycle? ⟨0⟩ = (g.allCycles ⟨0⟩).head? ∧
      g.allCycles ⟨0⟩ = [⟨0⟩, ⟨1⟩, ⟨2⟩, ⟨1⟩] := by
  intro ops g c
  have hab : g.Adj ⟨0⟩ ⟨1⟩ := ⟨⟨0⟩, ⟨"ab", "", .one, .default, ⟨0⟩, ⟨1⟩, ⟨⟨0⟩⟩⟩, rfl, rfl, rfl⟩
  have hbc : g.Adj ⟨1⟩ ⟨2⟩ := ⟨⟨2⟩, ⟨"bc", "", .one, .default, ⟨1⟩, ⟨2⟩, ⟨⟨0⟩⟩⟩, rfl, rfl, rfl⟩
  have hcb : g.Adj ⟨2⟩ ⟨1⟩ := ⟨⟨3⟩, ⟨"cb", "", .one, .default, ⟨2⟩, ⟨1⟩, ⟨⟨0⟩⟩⟩, rfl, rfl, rfl⟩
  have hne : c ≠ .nil := by simp [c]
  have hc : c.Chain g.Adj := by simp [c, hbc, hcb]
  have hreach : ∃ n ∈ c, ReflTransGen g.Adj ⟨0⟩ n := ⟨⟨1⟩, by simp [c], .single hab⟩
  obtain ⟨-, hhits, hfirst⟩ := allCycles_ofHistory ⟨⟨0⟩⟩ ops ⟨0⟩
  exact ⟨hne, hc, hreach, hhits c hne hc hreach, hfirst, by decide +kernel⟩

end Graph

end Multidigraph
