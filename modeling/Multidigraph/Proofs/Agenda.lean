import Multidigraph.Proofs.Course
import Multidigraph.Walk.BreadthFirst

namespace Multidigraph.Walk

variable {σ τ N ε : Type} [Ord N] [Std.TransOrd N] {f : τ → σ} {nav : Navigation σ N}
  {flags : Flags} {heed : Answer ε → Answer ε}

namespace DepthFirst

structure Agenda (N : Type) [Ord N] where
  stack : List (Frame N)
  visited : Std.ExtTreeSet N
  path : Std.ExtTreeSet N
  warnings : Array (Warning N)

namespace Agenda

def start (n : N) : Agenda N := ⟨[.pending n], ∅, ∅, #[]⟩

def drop (below : List (Frame N)) (warnings : Array (Warning N)) (a : Agenda N) : Agenda N :=
  { a with stack := below, warnings }

def enter (n : N) (below : List (Frame N)) (a : Agenda N) : Agenda N :=
  { a with
    stack := .entered n :: below
    visited := a.visited.insert n
    path := a.path.insert n }

def leave (n : N) (below : List (Frame N)) (a : Agenda N) : Agenda N :=
  { a with stack := below, path := a.path.erase n }

def push (v : View N) (flags : Flags) (n : N) (a : Agenda N) : Agenda N :=
  { a with
    stack := pushed a.visited (v.neighbours flags n) ++ a.stack
    warnings := a.warnings.appendList (v.drifts flags n) }

def closed (v : View N) (flags : Flags) (n : N) (a : Agenda N) : List N :=
  (v.neighbours flags n).reverse.filter fun m => a.visited.contains m && a.path.contains m

end Agenda

def plan (nav : Navigation σ N) (flags : Flags) (a : Agenda N) (world : σ) :
    Option (Move (Agenda N) σ N) :=
  match a.stack with
  | [] => none
  | .entered n :: below => some (.call .last n (a.leave n below) fun _ => (a.leave n below, []))
  | .pending n :: below =>
    if a.visited.contains n then some (.drop (a.drop below a.warnings) [])
    else if nav.contains world n then
      some (.call .first n (a.enter n below) fun world =>
        ((a.enter n below).push (nav.view world) flags n,
          (a.enter n below).closed (nav.view world) flags n))
    else some (.drop (a.drop below (a.warnings.push (.left n))) [])

theorem plan_eq_none {a : Agenda N} {world : σ} (h : plan nav flags a world = none) :
    a.stack = [] := by
  unfold plan at h
  split at h
  · assumption
  · cases h
  · split at h
    · cases h
    · split at h <;> cases h

/-- An entry is dropped if its node was visited, or, with a warning, if its node is absent. -/
theorem plan_eq_drop {a next : Agenda N} {world : σ} {cycles : List N}
    (h : plan nav flags a world = some (.drop next cycles)) :
    ∃ n below, a.stack = .pending n :: below ∧ cycles = [] ∧
      (n ∈ a.visited ∧ next = a.drop below a.warnings ∨
        n ∉ a.visited ∧ nav.contains world n = false ∧
          next = a.drop below (a.warnings.push (.left n))) := by
  unfold plan at h
  split at h
  · cases h
  · cases h
  · next n below hstack =>
    split at h
    · next hn =>
      cases h
      exact ⟨n, below, hstack, rfl, .inl ⟨hn, rfl⟩⟩
    · next hn =>
      split at h
      · cases h
      · next hv =>
        cases h
        exact ⟨n, below, hstack, rfl, .inr ⟨hn, by simpa using hv, rfl⟩⟩

theorem plan_eq_first {a halt : Agenda N} {world : σ} {n : N} {next : σ → Agenda N × List N}
    (h : plan nav flags a world = some (.call .first n halt next)) :
    ∃ below, a.stack = .pending n :: below ∧ n ∉ a.visited ∧ nav.contains world n = true ∧
      halt = a.enter n below ∧ next = fun world =>
        ((a.enter n below).push (nav.view world) flags n,
          (a.enter n below).closed (nav.view world) flags n) := by
  unfold plan at h
  split at h
  · cases h
  · cases h
  · next below hstack =>
    split at h
    · cases h
    · next hn =>
      split at h
      · next hv =>
        cases h
        exact ⟨below, hstack, hn, hv, rfl, rfl⟩
      · cases h

theorem plan_eq_last {a halt : Agenda N} {world : σ} {n : N} {next : σ → Agenda N × List N}
    (h : plan nav flags a world = some (.call .last n halt next)) :
    ∃ below, a.stack = .entered n :: below ∧ halt = a.leave n below ∧
      next = fun _ => (a.leave n below, []) := by
  unfold plan at h
  split at h
  · cases h
  · next below hstack =>
    cases h
    exact ⟨below, hstack, rfl, rfl⟩
  · split at h
    · cases h
    · split at h <;> cases h

def visitors (pre post : Visitor σ N ε) : Phase → Visitor σ N ε
  | .first => pre
  | .last => post

omit [Std.TransOrd N] in
def State.ofCourse (c : Course (Agenda N) σ N ε) : State (σ × Array (Event σ N ε)) N ε :=
  ⟨(c.world, c.events), c.control.stack, c.control.visited, c.control.path, c.status,
    c.control.warnings, c.stopped⟩

theorem enter_ofCourse (pre post : Visitor σ N ε) (n : N) (below : List (Frame N))
    (c : Course (Agenda N) σ N ε) :
    enter (nav.comap Prod.fst) ((pre.recorded .first).heeded heed) flags n below (.ofCourse c) =
      .ofCourse (c.call (visitors pre post) heed flags .first n (c.control.enter n below)
        fun world => ((c.control.enter n below).push (nav.view world) flags n,
          (c.control.enter n below).closed (nav.view world) flags n)) := by
  obtain ⟨⟨stack, visited, path, warnings⟩, world, events, status, stopped⟩ := c
  cases hgo : flags.goesOn (heed (pre world n status).1) with
  | true =>
    simp only [enter, State.ofCourse, Visitor.heeded, Visitor.recorded, Course.call,
      Course.event, visitors, hgo, if_true]
    exact expand_state (p := ⟨((pre world n status).2, _), visited.insert n,
      status.note n (heed (pre world n status).1), warnings, false⟩) rfl (.entered n :: below)
  | false =>
    simp [enter, State.ofCourse, Visitor.heeded, Visitor.recorded, Course.call, Course.event,
      visitors, Agenda.enter, hgo]

theorem step_ofCourse (pre post : Visitor σ N ε) (c : Course (Agenda N) σ N ε) :
    step (nav.comap Prod.fst) ((pre.recorded .first).heeded heed)
        ((post.recorded .last).heeded heed) flags (.ofCourse c) =
      (c.step (plan nav flags) (visitors pre post) heed flags).map State.ofCourse := by
  obtain ⟨⟨stack, visited, path, warnings⟩, world, events, status, stopped⟩ := c
  cases stopped with
  | true => rfl
  | false =>
    cases stack with
    | nil => rfl
    | cons frame below =>
      cases frame with
      | entered n =>
        cases hgo : flags.goesOn (heed (post world n status).1) <;>
          simp [step, Course.step, Course.act, plan, State.ofCourse, leave, Visitor.heeded,
            Visitor.recorded, Course.call, Course.event, visitors, Agenda.leave, hgo]
      | pending n =>
        by_cases hn : n ∈ visited
        · simp [step, Course.step, Course.act, plan, State.ofCourse, Course.drop, Agenda.drop, hn]
        cases hv : nav.contains world n with
        | false =>
          simp [step, Course.step, Course.act, plan, State.ofCourse, Course.drop, Agenda.drop,
            Navigation.comap, hn, hv]
        | true =>
          simpa [step, Course.step, Course.act, plan, State.ofCourse, Navigation.comap, hn, hv]
            using enter_ofCourse pre post n below
              ⟨⟨.pending n :: below, visited, path, warnings⟩, world, events, status, false⟩

theorem finished_ofCourse (nav : Navigation σ N) (flags : Flags) (c : Course (Agenda N) σ N ε) :
    (State.ofCourse c).finished = c.finished (plan nav flags) := by
  obtain ⟨⟨stack, visited, path, warnings⟩, world, events, status, stopped⟩ := c
  cases stack with
  | nil => rfl
  | cons frame below =>
    cases frame with
    | entered n => rfl
    | pending n =>
      simp only [State.finished, State.ofCourse, Course.finished, plan, List.isEmpty_cons]
      split
      · rfl
      · split <;> rfl

def course (nav : Navigation σ N) (pre post : Visitor σ N ε) (heed : Answer ε → Answer ε)
    (flags : Flags) (limit : Nat) (world : σ) (n : N) : Course (Agenda N) σ N ε :=
  iterate (Course.step (plan nav flags) (visitors pre post) heed flags) limit
    (.start (.start n) world)

end DepthFirst

open DepthFirst in
/-- A depth-first walk whose visitors record their calls is a course. -/
theorem depthFirst_recorded (nav : Navigation σ N) (pre post : Visitor σ N ε)
    (heed : Answer ε → Answer ε) (flags : Flags) (limit : Nat) (world : σ) (n : N) :
    depthFirst (nav.comap Prod.fst) ((pre.recorded .first).heeded heed)
        ((post.recorded .last).heeded heed) flags limit (world, #[]) n =
      (course nav pre post heed flags limit world n).report (plan nav flags)
        Agenda.warnings := by
  have hstart : start (world, #[]) n =
      State.ofCourse (.start (.start n) world : Course (Agenda N) σ N ε) := rfl
  unfold depthFirst
  rw [hstart, iterate_map (step_ofCourse pre post)]
  dsimp only
  rw [finished_ofCourse nav flags]
  rfl

theorem depthFirst_recorded_mapWorld (nav : Navigation σ N) (pre post : Visitor σ N ε)
    (heed : Answer ε → Answer ε) (flags : Flags) (limit : Nat) (world : σ) (n : N) :
    (depthFirst (nav.comap Prod.fst) ((pre.recorded .first).heeded heed)
        ((post.recorded .last).heeded heed) flags limit (world, #[]) n).mapWorld Prod.fst =
      depthFirst nav (pre.heeded heed) (post.heeded heed) flags limit world n :=
  (depthFirst_mapWorld (pre.recorded_projects .first heed) (post.recorded_projects .last heed) flags
    limit (world, #[]) n).symm

open DepthFirst in
theorem depthFirst_eq_report (nav : Navigation σ N) (pre post : Visitor σ N ε) (flags : Flags)
    (limit : Nat) (world : σ) (start : N) :
    depthFirst nav pre post flags limit world start =
      ((course nav pre post id flags limit world start).report (plan nav flags)
        Agenda.warnings).mapWorld Prod.fst := by
  rw [← depthFirst_recorded]
  exact (depthFirst_recorded_mapWorld nav pre post id flags limit world start).symm

namespace BreadthFirst

omit [Std.TransOrd N] in
def State.mapWorld (f : τ → σ) (s : State τ N ε) : State σ N ε :=
  ⟨f s.world, s.queue, s.visited, s.status, s.warnings, s.stopped⟩

theorem step_mapWorld {visit' : Visitor τ N ε} {visit : Visitor σ N ε}
    (hvisit : visit'.Projects f visit) (s : State τ N ε) :
    step nav visit flags (s.mapWorld f) =
      (step (nav.comap f) visit' flags s).map (State.mapWorld f) := by
  obtain ⟨world, queue, visited, status, warnings, stopped⟩ := s
  cases stopped with
  | true => rfl
  | false =>
    cases queue with
    | nil => rfl
    | cons n behind =>
      by_cases hn : n ∈ visited
      · simp [step, State.mapWorld, hn]
      cases hv : nav.contains (f world) n with
      | false => simp [step, State.mapWorld, hn, hv, Navigation.comap]
      | true =>
        cases hgo : flags.goesOn (visit' world n status).1 with
        | true =>
          cases hd : flags.directed <;>
            simp [step, State.mapWorld, enter, expand, lookAt, Navigation.comap,
              hvisit world n status, hn, hv, hgo, hd]
        | false =>
          simp [step, State.mapWorld, enter, Navigation.comap, hvisit world n status, hn, hv, hgo]

structure Agenda (N : Type) [Ord N] where
  queue : List N
  visited : Std.ExtTreeSet N
  warnings : Array (Warning N)

namespace Agenda

def start (n : N) : Agenda N := ⟨[n], ∅, #[]⟩

def drop (behind : List N) (warnings : Array (Warning N)) (a : Agenda N) : Agenda N :=
  { a with queue := behind, warnings }

def enter (n : N) (behind : List N) (a : Agenda N) : Agenda N :=
  { a with queue := behind, visited := a.visited.insert n }

def push (v : View N) (flags : Flags) (n : N) (a : Agenda N) : Agenda N :=
  let out : Agenda N :=
    { a with
      queue := a.queue ++ resolved (v.outgoing n)
      warnings := a.warnings.appendList (Walk.drifts .outgoing n (v.outgoing n)) }
  if flags.directed then out else
    { out with
      queue := out.queue ++ resolved (v.incoming n)
      warnings := out.warnings.appendList (Walk.drifts .incoming n (v.incoming n)) }

end Agenda

def plan (nav : Navigation σ N) (flags : Flags) (a : Agenda N) (world : σ) :
    Option (Move (Agenda N) σ N) :=
  match a.queue with
  | [] => none
  | n :: behind =>
    if a.visited.contains n then
      some (.drop (a.drop behind a.warnings) (if flags.directed then [] else [n]))
    else if nav.contains world n then
      some (.call .first n (a.enter n behind) fun world =>
        ((a.enter n behind).push (nav.view world) flags n, []))
    else some (.drop (a.drop behind (a.warnings.push (.left n))) [])

theorem plan_eq_none {a : Agenda N} {world : σ} (h : plan nav flags a world = none) :
    a.queue = [] := by
  unfold plan at h
  split at h
  · assumption
  · split at h
    · cases h
    · split at h <;> cases h

/-- An entry that is dropped counts as a cycle if its node was visited and the walk goes both
ways. -/
theorem plan_eq_drop {a next : Agenda N} {world : σ} {cycles : List N}
    (h : plan nav flags a world = some (.drop next cycles)) :
    ∃ n behind, a.queue = n :: behind ∧
      (n ∈ a.visited ∧ cycles = (if flags.directed then [] else [n]) ∧
          next = a.drop behind a.warnings ∨
        n ∉ a.visited ∧ nav.contains world n = false ∧ cycles = [] ∧
          next = a.drop behind (a.warnings.push (.left n))) := by
  unfold plan at h
  split at h
  · cases h
  · next n behind hqueue =>
    split at h
    · next hn =>
      cases h
      exact ⟨n, behind, hqueue, .inl ⟨hn, rfl, rfl⟩⟩
    · next hn =>
      split at h
      · cases h
      · next hv =>
        cases h
        exact ⟨n, behind, hqueue, .inr ⟨hn, by simpa using hv, rfl, rfl⟩⟩

theorem plan_eq_call {a halt : Agenda N} {world : σ} {phase : Phase} {n : N}
    {next : σ → Agenda N × List N}
    (h : plan nav flags a world = some (.call phase n halt next)) :
    phase = .first ∧ ∃ behind, a.queue = n :: behind ∧ n ∉ a.visited ∧
      nav.contains world n = true ∧ halt = a.enter n behind ∧
      next = fun world => ((a.enter n behind).push (nav.view world) flags n, []) := by
  unfold plan at h
  split at h
  · cases h
  · next behind hqueue =>
    split at h
    · cases h
    · next hn =>
      split at h
      · next hv =>
        cases h
        exact ⟨rfl, behind, hqueue, hn, hv, rfl, rfl⟩
      · cases h

omit [Std.TransOrd N] in
def State.ofCourse (c : Course (Agenda N) σ N ε) : State (σ × Array (Event σ N ε)) N ε :=
  ⟨(c.world, c.events), c.control.queue, c.control.visited, c.status, c.control.warnings, c.stopped⟩

theorem step_ofCourse (visit : Visitor σ N ε) (c : Course (Agenda N) σ N ε) :
    step (nav.comap Prod.fst) ((visit.recorded .first).heeded heed) flags (.ofCourse c) =
      (c.step (plan nav flags) (fun _ => visit) heed flags).map State.ofCourse := by
  obtain ⟨⟨queue, visited, warnings⟩, world, events, status, stopped⟩ := c
  cases stopped with
  | true => rfl
  | false =>
    cases queue with
    | nil => rfl
    | cons n behind =>
      by_cases hn : n ∈ visited
      · cases hd : flags.directed <;>
          simp [step, Course.step, Course.act, plan, State.ofCourse, Course.drop, Agenda.drop,
            hn, hd]
      cases hv : nav.contains world n with
      | false =>
        simp [step, Course.step, Course.act, plan, State.ofCourse, Course.drop, Agenda.drop,
          Navigation.comap, hn, hv]
      | true =>
        cases hgo : flags.goesOn (heed (visit world n status).1) with
        | true =>
          cases hd : flags.directed <;>
            simp [step, Course.step, Course.act, plan, State.ofCourse, enter, expand, lookAt,
              Agenda.enter, Agenda.push, Visitor.heeded, Visitor.recorded, Course.call,
              Course.event, Navigation.comap, Navigation.view, hn, hv, hgo, hd]
        | false =>
          simp [step, Course.step, Course.act, plan, State.ofCourse, enter, Agenda.enter,
            Visitor.heeded, Visitor.recorded, Course.call, Course.event, Navigation.comap, hn, hv,
            hgo]

theorem finished_ofCourse (nav : Navigation σ N) (flags : Flags) (c : Course (Agenda N) σ N ε) :
    (State.ofCourse c).finished = c.finished (plan nav flags) := by
  obtain ⟨⟨queue, visited, warnings⟩, world, events, status, stopped⟩ := c
  cases queue with
  | nil => rfl
  | cons n behind =>
    simp only [State.finished, State.ofCourse, Course.finished, plan, List.isEmpty_cons]
    split
    · rfl
    · split <;> rfl

def course (nav : Navigation σ N) (visit : Visitor σ N ε) (heed : Answer ε → Answer ε)
    (flags : Flags) (limit : Nat) (world : σ) (n : N) : Course (Agenda N) σ N ε :=
  iterate (Course.step (plan nav flags) (fun _ => visit) heed flags) limit
    (.start (.start n) world)

end BreadthFirst

open BreadthFirst in
/-- A breadth-first walk whose visitor records its calls is a course. -/
theorem breadthFirst_recorded (nav : Navigation σ N) (visit : Visitor σ N ε)
    (heed : Answer ε → Answer ε) (flags : Flags) (limit : Nat) (world : σ) (n : N) :
    breadthFirst (nav.comap Prod.fst) ((visit.recorded .first).heeded heed) flags limit
        (world, #[]) n =
      (course nav visit heed flags limit world n).report (plan nav flags) Agenda.warnings := by
  have hstart : start (world, #[]) n =
      State.ofCourse (.start (.start n) world : Course (Agenda N) σ N ε) := rfl
  unfold breadthFirst
  rw [hstart, iterate_map (step_ofCourse visit)]
  dsimp only
  rw [finished_ofCourse nav flags]
  rfl

theorem breadthFirst_mapWorld {visit' : Visitor τ N ε} {visit : Visitor σ N ε}
    (hvisit : visit'.Projects f visit) (flags : Flags) (limit : Nat) (world : τ) (n : N) :
    breadthFirst nav visit flags limit (f world) n =
      (breadthFirst (nav.comap f) visit' flags limit world n).mapWorld f := by
  have hstart : BreadthFirst.start (f world) n =
      (BreadthFirst.start world n : BreadthFirst.State τ N ε).mapWorld f := rfl
  unfold breadthFirst
  rw [hstart, iterate_map (BreadthFirst.step_mapWorld hvisit)]
  rfl

theorem breadthFirst_recorded_mapWorld (nav : Navigation σ N) (visit : Visitor σ N ε)
    (heed : Answer ε → Answer ε) (flags : Flags) (limit : Nat) (world : σ) (n : N) :
    (breadthFirst (nav.comap Prod.fst) ((visit.recorded .first).heeded heed) flags limit
        (world, #[]) n).mapWorld Prod.fst =
      breadthFirst nav (visit.heeded heed) flags limit world n :=
  (breadthFirst_mapWorld (visit.recorded_projects .first heed) flags limit (world, #[]) n).symm

open BreadthFirst in
theorem breadthFirst_eq_report (nav : Navigation σ N) (visit : Visitor σ N ε) (flags : Flags)
    (limit : Nat) (world : σ) (start : N) :
    breadthFirst nav visit flags limit world start =
      ((course nav visit id flags limit world start).report (plan nav flags)
        Agenda.warnings).mapWorld Prod.fst := by
  rw [← breadthFirst_recorded]
  exact (breadthFirst_recorded_mapWorld nav visit id flags limit world start).symm

end Multidigraph.Walk
