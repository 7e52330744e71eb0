import Multidigraph.Proofs.Recursion

namespace Multidigraph.Walk

variable {σ N ε : Type}

theorem appendList_append {α : Type} (xs : Array α) (as bs : List α) :
    xs.appendList (as ++ bs) = (xs.appendList as).appendList bs :=
  Array.ext' (by simp)

theorem Status.addCycles_append (s : Status N ε) (ms ns : List N) :
    s.addCycles (ms ++ ns) = (s.addCycles ms).addCycles ns := by
  simp only [addCycles, appendList_append]

namespace DepthFirst

variable [Ord N] [Std.TransOrd N]

def Progress.state (p : Progress σ N ε) (stack : List (Frame N)) (path : Std.ExtTreeSet N) :
    State σ N ε :=
  ⟨p.world, stack, p.visited, path, p.status, p.warnings, p.stopped⟩

omit [Std.TransOrd N] in
theorem State.exists_progress (s : State σ N ε) :
    ∃ (p : Progress σ N ε) (stack : List (Frame N)) (path : Std.ExtTreeSet N),
      s = p.state stack path :=
  ⟨⟨s.world, s.visited, s.status, s.warnings, s.stopped⟩, s.stack, s.path, rfl⟩

def pushed (visited : Std.ExtTreeSet N) (ns : List N) : List (Frame N) :=
  (ns.filter fun m => !visited.contains m).map .pending

section Step

variable {nav : Navigation σ N} {pre post : Visitor σ N ε} {flags : Flags} {v : View N}
  {p : Progress σ N ε} {n : N} {below : List (Frame N)} {path : Std.ExtTreeSet N}

theorem expand_state (hview : nav.view p.world = v) (stack : List (Frame N)) :
    expand nav flags n (p.state stack path) =
      (p.look v flags path n).state (pushed p.visited (v.neighbours flags n) ++ stack) path := by
  subst hview
  unfold expand
  cases hd : flags.directed with
  | true =>
    simp [Progress.state, Progress.look_eq, lookAt, pushed, Navigation.view, View.neighbours_eq,
      View.drifts_eq, hd]
  | false =>
    simp only [Progress.state, Progress.look_eq, lookAt, pushed, Navigation.view,
      View.neighbours_eq, View.drifts_eq, hd, Bool.false_eq_true, if_false, List.filter_append,
      List.map_append, List.append_assoc, List.reverse_append, Status.addCycles_append,
      appendList_append]

theorem step_stopped {s : State σ N ε} (hs : s.stopped = true) :
    step nav pre post flags s = none := by
  simp [step, hs]

theorem step_nil {s : State σ N ε} (hs : s.stack = []) : step nav pre post flags s = none := by
  unfold step
  split
  · rfl
  · rw [hs]

theorem step_eq_none_iff {s : State σ N ε} :
    step nav pre post flags s = none ↔ s.finished = true := by
  obtain ⟨world, stack, visited, path, status, warnings, stopped⟩ := s
  cases stopped with
  | true => simp [step, State.finished]
  | false =>
    cases stack with
    | nil => simp [step, State.finished]
    | cons frame below =>
      cases frame with
      | entered n => simp [step, State.finished]
      | pending n =>
        by_cases hn : n ∈ visited <;> cases hv : nav.contains world n <;>
          simp [step, State.finished, hn, hv]

theorem step_entered (hp : p.stopped = false) :
    step nav pre post flags (p.state (.entered n :: below) path) =
      some ((p.call post flags n).state below (path.erase n)) := by
  simp [step, Progress.state, hp, leave, Progress.call_eq]

theorem step_seen (hp : p.stopped = false) (hn : n ∈ p.visited) :
    step nav pre post flags (p.state (.pending n :: below) path) = some (p.state below path) := by
  simp [step, Progress.state, hp, hn]

theorem step_absent (hp : p.stopped = false) (hn : n ∉ p.visited)
    (hv : nav.contains p.world n = false) :
    step nav pre post flags (p.state (.pending n :: below) path) =
      some ((p.miss n).state below path) := by
  simp [step, Progress.state, hp, hn, hv, Progress.miss]

variable (post below path) in
theorem step_pending (hview : nav.view (p.call pre flags n).world = v) (hp : p.stopped = false)
    (hn : n ∉ p.visited) (hv : nav.contains p.world n = true) :
    step nav pre post flags (p.state (.pending n :: below) path) =
      some ((p.enter v pre flags (path.insert n) n).state
        (if (p.call pre flags n).stopped then .entered n :: below
          else pushed (p.visited.insert n) (v.neighbours flags n) ++ .entered n :: below)
        (path.insert n)) := by
  have hstep : step nav pre post flags (p.state (.pending n :: below) path) =
      some (enter nav pre flags n below (p.state (.pending n :: below) path)) := by
    simp [step, Progress.state, hp, hn, hv]
  have henter : enter nav pre flags n below (p.state (.pending n :: below) path) =
      if (p.call pre flags n).stopped then
        ((p.call pre flags n).mark n).state (.entered n :: below) (path.insert n)
      else expand nav flags n
        (((p.call pre flags n).mark n).state (.entered n :: below) (path.insert n)) := by
    simp only [enter, Progress.state, Progress.call_eq, Progress.mark]
    by_cases hgo : flags.goesOn (pre p.world n p.status).1 = true <;> simp [hgo]
  have hmark : ((p.call pre flags n).mark n).stopped = (p.call pre flags n).stopped := rfl
  have hview' : nav.view ((p.call pre flags n).mark n).world = v := hview
  rw [hstep, henter]
  simp only [Progress.enter, hmark]
  cases hc : (p.call pre flags n).stopped with
  | true => rfl
  | false =>
    simp only [Bool.false_eq_true, if_false]
    rw [expand_state hview']
    rfl

end Step

section Simulation

variable [Std.LawfulEqOrd N] {nav : Navigation σ N} {pre post : Visitor σ N ε} {flags : Flags}
  {v : View N}

omit [Std.LawfulEqOrd N] in
theorem pushed_cons_of_mem {visited : Std.ExtTreeSet N} {n : N} (hn : n ∈ visited) (ns : List N) :
    pushed visited (n :: ns) = pushed visited ns := by
  simp [pushed, hn]

omit [Std.LawfulEqOrd N] in
theorem pushed_cons_of_notMem {visited : Std.ExtTreeSet N} {n : N} (hn : n ∉ visited)
    (ns : List N) : pushed visited (n :: ns) = .pending n :: pushed visited ns := by
  have hc : visited.contains n = false := by
    rw [← Bool.not_eq_true, ← Std.ExtTreeSet.mem_iff_contains]
    exact hn
  simp [pushed, hc]

theorem erase_insert {s : Std.ExtTreeSet N} {n : N} (hn : n ∉ s) : (s.insert n).erase n = s := by
  ext m
  rw [Std.ExtTreeSet.mem_erase, Std.ExtTreeSet.mem_insert, Std.LawfulEqCmp.compare_eq_iff_eq]
  by_cases hm : n = m
  · simp [← hm, hn]
  · simp [hm]

/-- On the stack, the entered nodes are those whose visits are under way, and the pending nodes
above each of them are its neighbours still to come. Of the nodes to visit, those in `gone` are not
on the stack, for they had been visited when the others were pushed. -/
theorem Explores.runs {path : Std.ExtTreeSet N} {p q : Progress σ N ε} {ns left : List N}
    (h : Explores v pre post flags path p ns left q) (hpre : pre.Keeps nav v)
    (hpost : post.Keeps nav v) (hview : nav.view p.world = v)
    (hpath : ∀ m, m ∈ path → m ∈ p.visited) (gone : Std.ExtTreeSet N)
    (hgone : ∀ m, m ∈ gone → m ∈ p.visited) (below : List (Frame N)) :
    nav.view q.world = v ∧ ∃ stack path',
      Runs (step nav pre post flags) (p.state (pushed gone ns ++ below) path)
        (q.state stack path') ∧
      (q.stopped = false → stack = below ∧ path' = path) := by
  induction h generalizing gone below with
  | halt hs => exact ⟨hview, _, _, .refl _ _, fun hq => by simp [hs] at hq⟩
  | nil => exact ⟨hview, _, _, .refl _ _, fun _ => ⟨rfl, rfl⟩⟩
  | @seen path p n ns left r hp hn _ ih =>
    obtain ⟨hr, stack, path', hruns, hend⟩ := ih hview hpath gone hgone below
    refine ⟨hr, stack, path', ?_, hend⟩
    by_cases hg : n ∈ gone
    · rwa [pushed_cons_of_mem hg]
    · rw [pushed_cons_of_notMem hg]
      exact hruns.head (step_seen hp hn)
  | @absent path p n ns left r hp hn hv _ ih =>
    obtain ⟨hr, stack, path', hruns, hend⟩ := ih hview hpath gone hgone below
    refine ⟨hr, stack, path', ?_, hend⟩
    rw [pushed_cons_of_notMem (mt (hgone n) hn)]
    exact hruns.head (step_absent hp hn (by rw [← hv, ← hview]; rfl))
  | @cut path p n ns left q hp hn hv hbelow hq ih =>
    have hlive : nav.contains p.world n = true := by rw [← hv, ← hview]; rfl
    have hcall : nav.view (p.call pre flags n).world = v := hpre _ _ _ hview
    have hstep := step_pending post (pushed gone ns ++ below) path hcall hp hn hlive
    rw [pushed_cons_of_notMem (mt (hgone n) hn)]
    cases hc : (p.call pre flags n).stopped with
    | true =>
      obtain ⟨-, rfl⟩ := hbelow.eq_of_stopped (by simpa using hc)
      refine ⟨by simpa using hcall, _, _, (Runs.refl _ _).head hstep, fun h => ?_⟩
      rw [h] at hq
      cases hq
    | false =>
      obtain ⟨hr, stack, path', hruns, -⟩ := ih (by simpa using hcall)
        (Progress.mem_visited_enter pre v flags n hpath _)
        (p.visited.insert n) (fun m hm => by simpa using hm)
        (.entered n :: (pushed gone ns ++ below))
      rw [hc] at hstep
      exact ⟨hr, stack, path', hruns.head hstep, fun h => by simp [hq] at h⟩
  | @visit path p n ns left left' q r hp hn hv hbelow hq hrest ihbelow ihrest =>
    have hlive : nav.contains p.world n = true := by rw [← hv, ← hview]; rfl
    have hcall : nav.view (p.call pre flags n).world = v := hpre _ _ _ hview
    have hgrows : ∀ m, m ∈ p.visited → m ∈ q.visited := fun m hm =>
      hbelow.visited_mono (by simp [hm])
    have hc : (p.call pre flags n).stopped = false := by
      simpa using hbelow.stopped_eq_false hq
    have hstep := step_pending post (pushed gone ns ++ below) path hcall hp hn hlive
    rw [hc] at hstep
    -- the frame of `n` waits under those of its neighbours, and is on top again after them
    obtain ⟨hview', stack, path', hruns, hend⟩ := ihbelow (by simpa using hcall)
      (Progress.mem_visited_enter pre v flags n hpath _)
      (p.visited.insert n) (fun m hm => by simpa using hm)
      (.entered n :: (pushed gone ns ++ below))
    obtain ⟨rfl, rfl⟩ := hend hq
    have hleave : step nav pre post flags
        (q.state (.entered n :: (pushed gone ns ++ below)) (path.insert n)) =
          some ((q.call post flags n).state (pushed gone ns ++ below) path) := by
      rw [step_entered hq, erase_insert (mt (hpath n) hn)]
    obtain ⟨hr, stack, path', hruns', hend'⟩ := ihrest (hpost _ _ _ hview')
      (fun m hm => hgrows m (hpath m hm)) gone (fun m hm => hgrows m (hgone m hm)) below
    refine ⟨hr, stack, path', ?_, hend'⟩
    rw [pushed_cons_of_notMem (mt (hgone n) hn)]
    exact (hruns.trans (hruns'.head hleave)).head hstep

end Simulation

section Termination

def Frame.steps : Frame N → Nat
  | .pending _ => 2
  | .entered _ => 1

omit [Ord N] [Std.TransOrd N] in
theorem Frame.steps_pos (frame : Frame N) : 0 < frame.steps := by
  cases frame <;> exact Nat.succ_pos _

def State.steps (v : View N) (flags : Flags) (nodes : List N) (s : State σ N ε) : Nat :=
  (s.stack.map Frame.steps).sum +
    2 * owed (fun m => (v.neighbours flags m).length) nodes s.visited

omit [Ord N] [Std.TransOrd N] in
theorem steps_pending (ns : List N) :
    ((ns.map Frame.pending).map Frame.steps).sum = 2 * ns.length := by
  induction ns with
  | nil => rfl
  | cons n ns ih =>
    simp only [List.map_cons, List.sum_cons, ih, Frame.steps, List.length_cons]
    omega

theorem steps_pushed_le (visited : Std.ExtTreeSet N) (ns : List N) :
    ((pushed visited ns).map Frame.steps).sum ≤ 2 * ns.length := by
  rw [pushed, steps_pending]
  exact Nat.mul_le_mul_left 2 (List.length_filter_le _ _)

variable {nav : Navigation σ N} {pre post : Visitor σ N ε} {flags : Flags} {v : View N}
  {nodes : List N}

theorem steps_state_cons (p : Progress σ N ε) (frame : Frame N) (below : List (Frame N))
    (path : Std.ExtTreeSet N) :
    (p.state (frame :: below) path).steps v flags nodes =
      frame.steps + (p.state below path).steps v flags nodes := by
  simp only [State.steps, Progress.state, List.map_cons, List.sum_cons]
  omega

/-- Each step uses up steps that a frame takes, or that were owed for a node not yet visited. -/
theorem step_steps_lt (hpre : pre.Keeps nav v) (hpost : post.Keeps nav v)
    (hnodes : ∀ m, v.contains m = true → m ∈ nodes) (s t : State σ N ε)
    (hview : nav.view s.world = v) (h : step nav pre post flags s = some t) :
    nav.view t.world = v ∧ t.steps v flags nodes < s.steps v flags nodes := by
  obtain ⟨p, stack, path, rfl⟩ := s.exists_progress
  replace hview : nav.view p.world = v := hview
  cases hstop : p.stopped with
  | true => rw [step_stopped hstop] at h; cases h
  | false =>
    cases stack with
    | nil => rw [step_nil rfl] at h; cases h
    | cons frame below =>
      cases frame with
      | entered n =>
        rw [step_entered hstop] at h
        cases h
        refine ⟨hpost _ _ _ hview, ?_⟩
        rw [steps_state_cons]
        exact Nat.lt_add_of_pos_left (Frame.steps_pos _)
      | pending n =>
        by_cases hn : n ∈ p.visited
        · rw [step_seen hstop hn] at h
          cases h
          refine ⟨hview, ?_⟩
          rw [steps_state_cons]
          exact Nat.lt_add_of_pos_left (Frame.steps_pos _)
        cases hv : nav.contains p.world n with
        | false =>
          rw [step_absent hstop hn hv] at h
          cases h
          refine ⟨hview, ?_⟩
          rw [steps_state_cons]
          exact Nat.lt_add_of_pos_left (Frame.steps_pos _)
        | true =>
          have hcall : nav.view (p.call pre flags n).world = v := hpre _ _ _ hview
          rw [step_pending post below path hcall hstop hn hv] at h
          cases h
          refine ⟨by simpa [Progress.state] using hcall, ?_⟩
          have hlive : v.contains n = true := by rw [← hv, ← hview]; rfl
          have howed := owed_insert (fun m => (v.neighbours flags m).length) (hnodes n hlive) hn
          have hpushed := steps_pushed_le (p.visited.insert n) (v.neighbours flags n)
          cases (p.call pre flags n).stopped with
          | true =>
            simp only [State.steps, Progress.state, Progress.visited_enter, List.map_cons,
              List.sum_cons, Frame.steps, if_true]
            omega
          | false =>
            simp only [State.steps, Progress.state, Progress.visited_enter, List.map_cons,
              List.map_append, List.sum_append, List.sum_cons, Frame.steps, Bool.false_eq_true,
              if_false]
            omega

end Termination

end DepthFirst

def View.pushes (v : View N) (flags : Flags) (nodes : List N) : Nat :=
  1 + (nodes.map fun m => (v.neighbours flags m).length).sum

open DepthFirst in
/-- In a finite world that the visitors leave as it is, the walk reports what the recursion
comes to. -/
theorem depthFirst_explores [Ord N] [Std.TransOrd N] [Std.LawfulEqOrd N] (nav : Navigation σ N)
    {pre post : Visitor σ N ε} (world : σ) {nodes : List N} (hpre : pre.Keeps nav (nav.view world))
    (hpost : post.Keeps nav (nav.view world))
    (hnodes : ∀ m, nav.contains world m = true → m ∈ nodes) (flags : Flags) (n : N) :
    ∃ left q, Explores (nav.view world) pre post flags ∅ (.start world) [n] left q ∧
      ∀ limit, 2 * (nav.view world).pushes flags nodes ≤ limit →
        depthFirst nav pre post flags limit world n = q.report := by
  obtain ⟨left, q, hq⟩ :=
    exists_explores (v := nav.view world) hnodes pre post flags ∅ (.start world) [n]
  refine ⟨left, q, hq, fun limit hlimit => ?_⟩
  obtain ⟨-, stack, path, hruns, hend⟩ := hq.runs hpre hpost rfl (by simp) ∅ (by simp) []
  have hstart : (Progress.start world : Progress σ N ε).state (pushed ∅ [n] ++ []) ∅ =
      start world n := by simp [Progress.start, Progress.state, pushed, start]
  have hlast : step nav pre post flags
      (iterate (step nav pre post flags) limit (start world n)) = none := by
    refine step_iterate_eq_none (fun s => nav.view s.world = nav.view world)
      (State.steps (nav.view world) flags nodes)
      (fun s t hs h => step_steps_lt hpre hpost hnodes s t hs h) rfl (Nat.le_trans ?_ hlimit)
    simp [State.steps, start, Frame.steps, View.pushes, owed_empty, Nat.mul_add]
  have hdone : step nav pre post flags (q.state stack path) = none := by
    cases hstop : q.stopped with
    | true => exact step_stopped hstop
    | false => exact step_nil (hend hstop).1
  rw [hstart] at hruns
  unfold depthFirst
  rw [hruns.iterate_eq hdone hlast]
  dsimp only
  rw [step_eq_none_iff.mp hdone]
  rfl

end Multidigraph.Walk
