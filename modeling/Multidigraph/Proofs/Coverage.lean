import Mathlib.Data.List.Nodup
import Multidigraph.Proofs.Orderly

namespace Multidigraph.Walk

variable {σ γ N ε : Type}

section Calls

def visits (events : List (Event σ N ε)) : List N :=
  (events.filter fun e => e.phase = .first).map fun e => e.node

def Sighted (leads : σ → N → N → Prop) (events : List (Event σ N ε)) (m : N) : Prop :=
  ∃ e ∈ events, e.phase = .first ∧ leads e.after e.node m

variable {events : List (Event σ N ε)} {e : Event σ N ε} {m : N}

theorem mem_visits : m ∈ visits events ↔ ∃ e ∈ events, e.phase = .first ∧ e.node = m := by
  simp [visits, and_assoc]

theorem visits_append_singleton (events : List (Event σ N ε)) (e : Event σ N ε) :
    visits (events ++ [e]) = visits events ++ if e.phase = .first then [e.node] else [] := by
  rw [visits, List.filter_append, List.map_append]
  by_cases he : e.phase = .first <;> simp [visits, he]

theorem mem_visits_append_singleton :
    m ∈ visits (events ++ [e]) ↔ e.phase = .first ∧ m = e.node ∨ m ∈ visits events := by
  rw [visits_append_singleton, List.mem_append, or_comm]
  by_cases he : e.phase = .first <;> simp [he]

theorem nodup_visits_append_singleton (h : (visits events).Nodup)
    (he : e.phase = .first → e.node ∉ visits events) : (visits (events ++ [e])).Nodup := by
  rw [visits_append_singleton]
  by_cases hfirst : e.phase = .first
  · rw [if_pos hfirst, ← List.concat_eq_append]
    exact .concat (he hfirst) h
  · rwa [if_neg hfirst, List.append_nil]

theorem sighted_append_singleton {leads : σ → N → N → Prop} :
    Sighted leads (events ++ [e]) m ↔
      Sighted leads events m ∨ e.phase = .first ∧ leads e.after e.node m := by
  simp only [Sighted, List.mem_append, List.mem_singleton]
  constructor
  · rintro ⟨d, hd | rfl, hm⟩
    · exact .inl ⟨d, hd, hm⟩
    · exact .inr hm
  · rintro (⟨d, hd, hm⟩ | hm)
    · exact ⟨d, .inl hd, hm⟩
    · exact ⟨e, .inr rfl, hm⟩

end Calls

/-- What a walk does in changing worlds, when it makes a report with a record of its calls. -/
structure Covers (contains : σ → N → Bool) (leads : σ → N → N → Prop) (flags : Flags) (start : N)
    (r : Report (σ × Array (Event σ N ε)) N ε) : Prop where
  once : (visits r.world.2.toList).Nodup
  live : ∀ e ∈ r.world.2.toList, e.phase = .first → contains e.before e.node = true
  /-- Each node visited, save the first, was in sight right after an earlier visit. -/
  sighted : Throughout
    (fun earlier e => e.phase = .first → e.node = start ∨ Sighted leads earlier e.node)
    r.world.2.toList
  /-- When no call has ended the walk, each node that was in sight has been visited or is gone. -/
  complete : r.finished = true → (∀ e ∈ r.world.2.toList, flags.goesOn e.answer = true) →
    ∀ m, Sighted leads r.world.2.toList m → contains r.world.1 m = true →
      m ∈ visits r.world.2.toList

/-- What can be said of the worlds that a walk comes through: what holds of each, which nodes are
known in it, and where each node leads. Nodes come to be known when some node leads to them. -/
structure Ground (nav : Navigation σ N) (flags : Flags) where
  inv : σ → Prop
  known : σ → N → Prop
  leads : σ → N → N → Prop
  mem_neighbours_iff : ∀ {w a b}, inv w → (b ∈ (nav.view w).neighbours flags a ↔ leads w a b)
  known_of_leads : ∀ {w a b}, inv w → leads w a b → known w b

/-- Whether a visitor leaves the ground as it is: a node that is known stays so, and when it is gone
it does not come back. -/
structure Visitor.Respects {nav : Navigation σ N} {flags : Flags} (visit : Visitor σ N ε)
    (ground : Ground nav flags) : Prop where
  inv : ∀ w n s, ground.inv w → ground.inv (visit w n s).2
  known : ∀ w n s m, ground.inv w → ground.known w m → ground.known (visit w n s).2 m
  gone : ∀ w n s m, ground.inv w → ground.known w m → nav.contains w m = false →
    nav.contains (visit w n s).2 m = false

section Tracks

/-- Whether what a walk has in mind fits its calls so far. The seeds are nodes that were in sight at
the start. -/
structure Tracks (visited waiting : γ → N → Prop) (leads : σ → N → N → Prop) (start : N)
    (seeds : List N) (absent : N → Prop) (a : γ) (events : List (Event σ N ε)) : Prop where
  visited_iff : ∀ m, visited a m ↔ m ∈ visits events
  origin : ∀ m, waiting a m → m = start ∨ Sighted leads events m
  kept : ∀ m, m ∈ seeds ∨ Sighted leads events m → waiting a m ∨ m ∈ visits events ∨ absent m

variable {visited waiting : γ → N → Prop} {leads : σ → N → N → Prop} {start : N} {seeds : List N}
  {absent absent' : N → Prop} {a b : γ} {events : List (Event σ N ε)}

theorem tracks_start (hvisited : ∀ m, ¬ visited a m) (hwaiting : ∀ m, waiting a m ↔ m = start)
    (hseeds : ∀ m ∈ seeds, m = start) :
    Tracks visited waiting leads start seeds absent a ([] : List (Event σ N ε)) := by
  constructor
  case visited_iff => exact fun m => iff_of_false (hvisited m) List.not_mem_nil
  case origin => exact fun m hm => .inl ((hwaiting m).mp hm)
  case kept =>
    rintro m (hm | ⟨e, he, -⟩)
    · exact .inl ((hwaiting m).mpr (hseeds m hm))
    · cases he

theorem Tracks.drop (h : Tracks visited waiting leads start seeds absent a events)
    (hturn : Turns visited waiting (fun _ => False) (fun _ => False) absent a b) :
    Tracks visited waiting leads start seeds absent b events := by
  have hvisited_iff : ∀ m, visited b m ↔ m ∈ visits events := fun m =>
    ((hturn.visited_iff m).trans (iff_of_eq (false_or _))).trans (h.visited_iff m)
  constructor
  case visited_iff => exact hvisited_iff
  case origin => exact fun m hm => h.origin m ((hturn.waiting_of m hm).resolve_right id)
  case kept =>
    intro m hm
    obtain hwaits | hm := h.kept m hm
    · simpa only [hvisited_iff] using hturn.kept m (.inl hwaits)
    · exact .inr hm

theorem Tracks.call (h : Tracks visited waiting leads start seeds absent a events)
    {e : Event σ N ε} {seen : N → Prop}
    (hturn : Turns visited waiting (fun m => e.phase = .first ∧ m = e.node) seen (fun _ => False)
      a b)
    (hseen : ∀ m, seen m ↔ e.phase = .first ∧ leads e.after e.node m)
    (hgone : ∀ m, m ∈ seeds ∨ Sighted leads events m → absent m → absent' m) :
    Tracks visited waiting leads start seeds absent' b (events ++ [e]) := by
  have hvisited_iff : ∀ m, visited b m ↔ m ∈ visits (events ++ [e]) := by
    intro m
    rw [mem_visits_append_singleton, ← h.visited_iff]
    exact hturn.visited_iff m
  have hkept : ∀ m, waiting a m ∨ seen m →
      waiting b m ∨ m ∈ visits (events ++ [e]) ∨ absent' m := by
    intro m hm
    obtain hwaits | hvisited | hfalse := hturn.kept m hm
    · exact .inl hwaits
    · exact .inr (.inl ((hvisited_iff m).mp hvisited))
    · cases hfalse
  constructor
  case visited_iff => exact hvisited_iff
  case origin =>
    intro m hm
    rw [sighted_append_singleton, ← or_assoc, ← hseen]
    exact (hturn.waiting_of m hm).imp_left (h.origin m)
  case kept =>
    intro m hm
    rw [sighted_append_singleton, ← or_assoc, ← hseen] at hm
    obtain hm | hm := hm
    · obtain hwaits | hvisited | habsent := h.kept m hm
      · exact hkept m (.inl hwaits)
      · exact .inr (.inl (mem_visits_append_singleton.mpr (.inr hvisited)))
      · exact .inr (.inr (hgone m hm habsent))
    · exact hkept m (.inr hm)

end Tracks

section Explored

variable {nav : Navigation σ N} {flags : Flags} {plan : Plan γ σ N} {visited waiting : γ → N → Prop}
  {visit : Phase → Visitor σ N ε} {ground : Ground nav flags} {start : N} {seeds : List N}
  {c d : Course γ σ N ε}

structure Explored (ground : Ground nav flags) (visited waiting : γ → N → Prop) (start : N)
    (seeds : List N) (c : Course γ σ N ε) : Prop where
  inv : ground.inv c.world
  inv_before : ∀ e ∈ c.events.toList, ground.inv e.before
  halts : c.Halts flags
  tracks : c.stopped = false → Tracks visited waiting ground.leads start seeds
    (nav.contains c.world · = false) c.control c.events.toList
  known : ∀ m, m ∈ seeds ∨ Sighted ground.leads c.events.toList m → ground.known c.world m
  once : (visits c.events.toList).Nodup
  live : ∀ e ∈ c.events.toList, e.phase = .first → nav.contains e.before e.node = true
  sighted : Throughout
    (fun earlier e => e.phase = .first → e.node = start ∨ Sighted ground.leads earlier e.node)
    c.events.toList

theorem explored_start {control : γ} {world : σ} (hinv : ground.inv world)
    (hvisited : ∀ m, ¬ visited control m) (hwaiting : ∀ m, waiting control m ↔ m = start)
    (hseeds : ∀ m ∈ seeds, m = start ∧ ground.known world m) :
    Explored ground visited waiting start seeds (Course.start control world : Course γ σ N ε) := by
  constructor
  case inv => exact hinv
  case inv_before => intro e he; cases he
  case halts => intro hs; cases hs
  case tracks => exact fun _ => tracks_start hvisited hwaiting fun m hm => (hseeds m hm).1
  case known =>
    rintro m (hm | ⟨e, he, -⟩)
    · exact (hseeds m hm).2
    · cases he
  case once => exact .nil
  case live => intro e he; cases he
  case sighted => exact throughout_nil

theorem Explored.drop (h : Explored ground visited waiting start seeds c) (hs : c.stopped = false)
    {next : γ} (cycles : List N)
    (hturn : Turns visited waiting (fun _ => False) (fun _ => False)
      (nav.contains c.world · = false) c.control next) :
    Explored ground visited waiting start seeds (c.drop next cycles) := by
  obtain ⟨inv, inv_before, halts, tracks, known, once, live, sighted⟩ := h
  exact ⟨inv, inv_before, halts, fun _ => (tracks hs).drop hturn, known, once, live, sighted⟩

theorem Explored.call (h : Explored ground visited waiting start seeds c) (hs : c.stopped = false)
    (hvisit : ∀ phase, (visit phase).Respects ground) {phase : Phase} {n : N} {halt : γ}
    {next : σ → γ × List N}
    (hfirst : phase = .first →
      nav.contains c.world n = true ∧ waiting c.control n ∧ ¬ visited c.control n)
    (hturn : ∀ w, Turns visited waiting (fun m => phase = .first ∧ m = n)
      (fun m => phase = .first ∧ m ∈ (nav.view w).neighbours flags n) (fun _ => False) c.control
      (next w).1) :
    Explored ground visited waiting start seeds (c.call visit id flags phase n halt next) := by
  obtain ⟨inv, inv_before, -, tracks, known, once, live, sighted⟩ := h
  have htracks := tracks hs
  have hinv : ground.inv (c.event visit phase n).after := (hvisit phase).inv _ n _ inv
  have hevents : (c.call visit id flags phase n halt next).events.toList =
      c.events.toList ++ [c.event visit phase n] := Array.toList_push
  constructor
  case inv => exact hinv
  case inv_before => exact Course.forall_events_call.mpr ⟨inv_before, inv⟩
  case halts => exact Course.halts_call
  case tracks =>
    intro hgo
    rw [hevents, Course.control_call (by simpa using hgo)]
    refine htracks.call (hturn _) (fun m => ?_) fun m hm => ?_
    · exact and_congr_right fun _ => ground.mem_neighbours_iff hinv
    · exact (hvisit phase).gone _ n _ m inv (known m hm)
  case known =>
    intro m hm
    rw [hevents, sighted_append_singleton, ← or_assoc] at hm
    obtain hm | ⟨-, hm⟩ := hm
    · exact (hvisit phase).known _ n _ m inv (known m hm)
    · exact ground.known_of_leads hinv hm
  case once =>
    rw [hevents]
    refine nodup_visits_append_singleton once fun hphase hn => ?_
    exact (hfirst hphase).2.2 ((htracks.visited_iff n).mpr hn)
  case live => exact Course.forall_events_call.mpr ⟨live, fun hphase => (hfirst hphase).1⟩
  case sighted =>
    rw [hevents]
    exact throughout_append_singleton.mpr
      ⟨sighted, fun hphase => htracks.origin n (hfirst hphase).2.1⟩

theorem Explored.step (h : Explored ground visited waiting start seeds c)
    (horderly : Orderly nav flags visited waiting plan)
    (hvisit : ∀ phase, (visit phase).Respects ground)
    (hstep : c.step plan visit id flags = some d) :
    Explored ground visited waiting start seeds d := by
  obtain ⟨hs, ⟨next, cycles, hplan, rfl⟩ | ⟨phase, n, halt, next, hplan, rfl⟩⟩ :=
    Course.step_eq_some hstep
  · exact h.drop hs cycles (horderly.drop hplan)
  · refine h.call hs hvisit (fun hphase => ?_) (horderly.call hplan)
    subst hphase
    exact horderly.first hplan

theorem Explored.complete (h : Explored ground visited waiting start seeds c)
    (horderly : Orderly nav flags visited waiting plan) (hfinished : c.finished plan = true)
    (hgoes : ∀ e ∈ c.events.toList, flags.goesOn e.answer = true) {m : N}
    (hm : m ∈ seeds ∨ Sighted ground.leads c.events.toList m)
    (hlive : nav.contains c.world m = true) : m ∈ visits c.events.toList := by
  obtain ⟨hs, hplan⟩ := h.halts.idle hfinished hgoes
  obtain hwaits | hvisited | hgone := (h.tracks hs).kept m hm
  · exact absurd hwaits (horderly.done hplan m)
  · exact hvisited
  · rw [hlive] at hgone
    cases hgone

theorem Explored.covers (h : Explored ground visited waiting start seeds c)
    (horderly : Orderly nav flags visited waiting plan) (warnings : γ → Array (Warning N)) :
    Covers nav.contains ground.leads flags start (c.report plan warnings) where
  once := h.once
  live := h.live
  sighted := h.sighted
  complete hfinished hgoes _ hm := h.complete horderly hfinished hgoes (.inr hm)

end Explored

section Courses

variable [Ord N] [Std.TransOrd N] [Std.LawfulEqOrd N] {nav : Navigation σ N} {flags : Flags}
  {ground : Ground nav flags} {world : σ}

theorem DepthFirst.explored_course {pre post : Visitor σ N ε} (hpre : pre.Respects ground)
    (hpost : post.Respects ground) (hinv : ground.inv world) (start : N) (seeds : List N)
    (hseeds : ∀ m ∈ seeds, m = start ∧ ground.known world m) (limit : Nat) :
    Explored ground (fun a m => m ∈ a.visited) Agenda.Waits start seeds
      (course nav pre post id flags limit world start) := by
  have hvisit : ∀ phase, (visitors pre post phase).Respects ground := by
    intro phase
    cases phase with
    | first => exact hpre
    | last => exact hpost
  refine iterate_invariant (fun _ _ h => h.step (plan_orderly nav flags) hvisit) ?_ limit
  refine explored_start hinv (fun m => ?_) (fun m => ?_) hseeds
  · exact Std.ExtTreeSet.not_mem_empty
  · simp [Agenda.Waits, Agenda.start]

theorem BreadthFirst.explored_course {visit : Visitor σ N ε} (hvisit : visit.Respects ground)
    (hinv : ground.inv world) (start : N) (seeds : List N)
    (hseeds : ∀ m ∈ seeds, m = start ∧ ground.known world m) (limit : Nat) :
    Explored ground (fun a m => m ∈ a.visited) (fun a m => m ∈ a.queue) start seeds
      (course nav visit id flags limit world start) := by
  refine iterate_invariant (fun _ _ h => h.step (plan_orderly nav flags) fun _ => hvisit) ?_ limit
  refine explored_start hinv (fun m => ?_) (fun m => ?_) hseeds
  · exact Std.ExtTreeSet.not_mem_empty
  · simp [Agenda.start]

end Courses

end Multidigraph.Walk
