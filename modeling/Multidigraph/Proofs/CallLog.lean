import Multidigraph.AdjacencyTable
import Multidigraph.Proofs.Simulation

namespace Multidigraph.Walk

variable {σ τ N ε : Type}

inductive Phase where
  | first
  | last
  deriving DecidableEq

structure Call (N ε : Type) where
  phase : Phase
  node : N
  status : Status N ε

def Visitor.logged (phase : Phase) (visit : Visitor σ N ε) :
    Visitor (σ × Array (Call N ε)) N ε :=
  fun (world, calls) n status =>
    let (answer, world) := visit world n status
    (answer, world, calls.push ⟨phase, n, status⟩)

/-- Whether one visitor does in the image of each world what the other does in the world. -/
def Visitor.Projects (f : τ → σ) (visit' : Visitor τ N ε) (visit : Visitor σ N ε) : Prop :=
  ∀ world n status, visit (f world) n status =
    ((visit' world n status).1, f (visit' world n status).2)

theorem Visitor.logged_projects (phase : Phase) (visit : Visitor σ N ε) :
    (visit.logged phase).Projects Prod.fst visit := by
  intro world n status
  rfl

theorem Visitor.Keeps.logged {visit : Visitor σ N ε} {nav : Navigation σ N} {v : View N}
    (h : visit.Keeps nav v) (phase : Phase) :
    (visit.logged phase).Keeps (nav.comap Prod.fst) v := by
  intro world n status hview
  exact h world.1 n status hview

def Report.mapWorld (f : τ → σ) (r : Report τ N ε) : Report σ N ε :=
  ⟨f r.world, r.status, r.warnings, r.finished⟩

section Projection

variable [Ord N] [Std.TransOrd N] {f : τ → σ} {nav : Navigation σ N}
  {pre' post' : Visitor τ N ε} {pre post : Visitor σ N ε} {flags : Flags}

namespace DepthFirst

omit [Std.TransOrd N] in
def State.mapWorld (f : τ → σ) (s : State τ N ε) : State σ N ε :=
  ⟨f s.world, s.stack, s.visited, s.path, s.status, s.warnings, s.stopped⟩

theorem expand_mapWorld (n : N) (s : State τ N ε) :
    expand nav flags n (s.mapWorld f) = (expand (nav.comap f) flags n s).mapWorld f := by
  unfold expand
  cases flags.directed <;> rfl

theorem enter_mapWorld (hpre : pre'.Projects f pre) (n : N) (below : List (Frame N))
    (s : State τ N ε) :
    enter nav pre flags n below (s.mapWorld f) =
      (enter (nav.comap f) pre' flags n below s).mapWorld f := by
  obtain ⟨world, stack, visited, path, status, warnings, stopped⟩ := s
  cases hgo : flags.goesOn (pre' world n status).1 with
  | true =>
    simp only [enter, State.mapWorld, hpre world n status, hgo, if_true]
    exact expand_mapWorld n ⟨(pre' world n status).2, .entered n :: below, visited.insert n,
      path.insert n, status.note n (pre' world n status).1, warnings, false⟩
  | false => simp [enter, State.mapWorld, hpre world n status, hgo]

theorem step_mapWorld (hpre : pre'.Projects f pre) (hpost : post'.Projects f post)
    (s : State τ N ε) :
    step nav pre post flags (s.mapWorld f) =
      (step (nav.comap f) pre' post' flags s).map (State.mapWorld f) := by
  obtain ⟨world, stack, visited, path, status, warnings, stopped⟩ := s
  cases stopped with
  | true => rfl
  | false =>
    cases stack with
    | nil => rfl
    | cons frame below =>
      cases frame with
      | entered n => simp [step, State.mapWorld, leave, hpost world n status]
      | pending n =>
        by_cases hn : n ∈ visited
        · simp [step, State.mapWorld, hn]
        cases hv : nav.contains (f world) n with
        | false => simp [step, State.mapWorld, hn, hv, Navigation.comap]
        | true =>
          simpa [step, State.mapWorld, hn, hv, Navigation.comap] using
            enter_mapWorld hpre n below
              ⟨world, .pending n :: below, visited, path, status, warnings, false⟩

end DepthFirst

theorem depthFirst_mapWorld (hpre : pre'.Projects f pre) (hpost : post'.Projects f post)
    (flags : Flags) (limit : Nat) (world : τ) (n : N) :
    depthFirst nav pre post flags limit (f world) n =
      (depthFirst (nav.comap f) pre' post' flags limit world n).mapWorld f := by
  have hstep : ∀ s, DepthFirst.step nav pre post flags (s.mapWorld f) =
      (DepthFirst.step (nav.comap f) pre' post' flags s).map (DepthFirst.State.mapWorld f) :=
    DepthFirst.step_mapWorld hpre hpost
  have hstart : DepthFirst.start (f world) n =
      (DepthFirst.start world n : DepthFirst.State τ N ε).mapWorld f := rfl
  unfold depthFirst
  rw [hstart, iterate_map hstep]
  rfl

end Projection

open DepthFirst in
/-- In a finite world that the visitors leave as it is, the walk makes the calls that the recursion
makes, in the same order and with the same status shown, and it ends with the same report. -/
theorem depthFirst_eq_visit [Ord N] [Std.TransOrd N] [Std.LawfulEqOrd N] (nav : Navigation σ N)
    (pre post : Visitor σ N ε) (flags : Flags) (world : σ) (n : N) (nodes : List N)
    (hnodes : ∀ m, nav.contains world m = true → m ∈ nodes)
    (hpre : pre.Keeps nav (nav.view world)) (hpost : post.Keeps nav (nav.view world)) :
    ∃ p : Progress (σ × Array (Call N ε)) N ε,
      visit (nav.view world) (pre.logged .first) (post.logged .last) flags ∅ n
        (.start (world, #[])) = some p ∧
      ∀ limit, 2 * (nav.view world).pushes flags nodes ≤ limit →
        depthFirst (nav.comap Prod.fst) (pre.logged .first) (post.logged .last) flags limit
          (world, #[]) n = p.report ∧
        depthFirst nav pre post flags limit world n = p.report.mapWorld Prod.fst := by
  obtain ⟨left, p, hp, hruns⟩ := depthFirst_explores (nav.comap Prod.fst) (world, #[])
    (hpre.logged .first) (hpost.logged .last) hnodes flags n
  refine ⟨p, hp.visit_eq, fun limit hlimit => ⟨hruns limit hlimit, ?_⟩⟩
  rw [← hruns limit hlimit]
  exact depthFirst_mapWorld (pre.logged_projects .first) (post.logged_projects .last) flags limit
    (world, #[]) n

/-- First visits fail once a cycle was found, and last visits fail too until one stops the walk. -/
theorem depthFirst_eq_visit_table :
    let t : AdjacencyTable :=
      ⟨#[[some 1], [some 2, none], [some 1, some 0]], #[[some 2], [some 0, some 2], [some 1]], 0,
        []⟩
    let pre : Visitor AdjacencyTable Nat Unit := fun t _ status =>
      (if status.hasCycles then .fail () else .proceed, t)
    let post : Visitor AdjacencyTable Nat Unit := fun t n _ =>
      (if n = 2 then .stop else .fail (), t)
    let flags : Flags := { directed := false }
    let r := depthFirst (AdjacencyTable.navigation.comap Prod.fst) (pre.logged .first)
      (post.logged .last) flags 20 (t, #[]) 0
    (∃ p, DepthFirst.visit (AdjacencyTable.navigation.view t) (pre.logged .first)
        (post.logged .last) flags ∅ 0 (.start (t, #[])) = some p ∧
      r = p.report ∧
      depthFirst AdjacencyTable.navigation pre post flags 20 t 0 = p.report.mapWorld Prod.fst) ∧
      r.world.2.toList.map (fun c => (c.phase, c.node, c.status.cycles.toList)) =
        [(.first, 0, []), (.first, 2, []), (.first, 1, [0]), (.last, 1, [0, 2, 2, 0]),
          (.last, 2, [0, 2, 2, 0])] ∧
      r.world.2.toList.map (fun c => c.status.failures.toList.map Failure.node) =
        [[], [], [], [1], [1, 1]] ∧
      r.status.cycles = #[0, 2, 2, 0] ∧ r.status.failures.toList.map Failure.node = [1, 1] := by
  intro t pre post flags r
  have hnodes : ∀ m, AdjacencyTable.navigation.contains t m = true → m ∈ [0, 1, 2] := by
    intro m hm
    have hlt : m < 3 := by simpa [AdjacencyTable.navigation, t] using hm
    simp only [List.mem_cons, List.not_mem_nil, or_false]
    omega
  obtain ⟨p, hvisit, hruns⟩ := depthFirst_eq_visit AdjacencyTable.navigation pre post flags t 0
    [0, 1, 2] hnodes (fun _ _ _ h => h) (fun _ _ _ h => h)
  exact ⟨⟨p, hvisit, hruns 20 (by decide)⟩, by decide +kernel, by decide +kernel,
    by decide +kernel, by decide +kernel⟩

end Multidigraph.Walk
