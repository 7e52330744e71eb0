import Mathlib.Data.List.Induction
import Multidigraph.Proofs.Reentrance

open Relation

namespace Multidigraph

namespace Walk

variable {σ γ N ε : Type}

section Constant

variable {nav : Navigation σ N} {v : View N} {flags : Flags}

def View.ground (nav : Navigation σ N) (v : View N) (flags : Flags) : Ground nav flags where
  inv world := nav.view world = v
  known _ _ := True
  leads _ a b := b ∈ v.neighbours flags a
  mem_neighbours_iff hview := by rw [hview]
  known_of_leads _ _ := trivial

theorem Navigation.contains_of_view {world : σ} (hview : nav.view world = v) :
    nav.contains world = v.contains :=
  congrArg View.contains hview

theorem Visitor.Keeps.respects {visit : Visitor σ N ε} (h : visit.Keeps nav v) (flags : Flags) :
    visit.Respects (v.ground nav flags) where
  inv := h
  known _ _ _ _ _ _ := trivial
  gone w n s m hview _ hm := by
    rw [Navigation.contains_of_view (h w n s hview)]
    rwa [Navigation.contains_of_view hview] at hm

theorem Visitor.Keeps.recorded {visit : Visitor σ N ε} (h : visit.Keeps nav v) (phase : Phase) :
    (visit.recorded phase).Keeps (nav.comap Prod.fst) v := by
  intro world n status hview
  exact h world.1 n status hview

theorem reached_of_sighted {start : N} {events : List (Event σ N ε)}
    (hsighted : Throughout (fun earlier e => e.phase = .first →
      e.node = start ∨ Sighted (fun _ a b => b ∈ v.neighbours flags a) earlier e.node) events)
    (hlive : ∀ n ∈ visits events, v.contains n = true) :
    ∀ n ∈ visits events, ReflTransGen (v.Leads flags) start n := by
  induction events using List.reverseRecOn with
  | nil => intro n hn; cases hn
  | append_singleton events e ih =>
    obtain ⟨hearlier, he⟩ := throughout_append_singleton.mp hsighted
    have hmono : ∀ n ∈ visits events, n ∈ visits (events ++ [e]) := fun n hn =>
      mem_visits_append_singleton.mpr (.inr hn)
    have hreached := ih hearlier fun n hn => hlive n (hmono n hn)
    intro n hn
    obtain ⟨hphase, rfl⟩ | hn := mem_visits_append_singleton.mp hn
    · obtain heq | ⟨d, hd, hfirst, hleads⟩ := he hphase
      · rw [heq]
      · have hvisited : d.node ∈ visits events := mem_visits.mpr ⟨d, hd, hfirst, rfl⟩
        exact (hreached d.node hvisited).tail ⟨hlive _ (hmono _ hvisited), hleads⟩
    · exact hreached n hn

variable {plan : Plan γ σ N} {visited waiting : γ → N → Prop} {start : N} {c : Course γ σ N ε}

theorem Explored.mem_visits_iff
    (h : Explored (v.ground nav flags) visited waiting start [start] c)
    (horderly : Orderly nav flags visited waiting plan) (hfinished : c.finished plan = true)
    (hgoes : ∀ e ∈ c.events.toList, flags.goesOn e.answer = true) (m : N) :
    m ∈ visits c.events.toList ↔
      v.contains m = true ∧ ReflTransGen (v.Leads flags) start m := by
  have hlive : ∀ n ∈ visits c.events.toList, v.contains n = true := by
    intro n hn
    obtain ⟨e, he, hphase, rfl⟩ := mem_visits.mp hn
    rw [← Navigation.contains_of_view (h.inv_before e he)]
    exact h.live e he hphase
  have hcomplete : ∀ n,
      n = start ∨ Sighted (v.ground nav flags).leads c.events.toList n → v.contains n = true →
        n ∈ visits c.events.toList := by
    intro n hn hv
    refine h.complete horderly hfinished hgoes (hn.imp_left List.mem_singleton.mpr) ?_
    rwa [Navigation.contains_of_view h.inv]
  constructor
  · intro hm
    exact ⟨hlive m hm, reached_of_sighted h.sighted hlive m hm⟩
  · rintro ⟨hv, hr⟩
    induction hr with
    | refl => exact hcomplete start (.inl rfl) hv
    | tail _ hlead ih =>
      obtain ⟨e, he, hphase, hnode⟩ := mem_visits.mp (ih hlead.1)
      exact hcomplete _ (.inr ⟨e, he, hphase, hnode ▸ hlead.2⟩) hv

def Visitor.GoesOn (visit : Visitor σ N ε) (flags : Flags) : Prop :=
  ∀ world n status, flags.goesOn (visit world n status).1 = true

theorem Course.Answered.goesOn {visit : Phase → Visitor σ N ε} (h : c.Answered visit)
    (hgoes : ∀ phase, (visit phase).GoesOn flags) :
    ∀ e ∈ c.events.toList, flags.goesOn e.answer = true := by
  intro e he
  have hgo := hgoes e.phase e.before e.node e.status
  rwa [← h e he] at hgo

/-- What a walk comes to that sees all there is to see, when it makes a report with a record of its
calls. -/
structure Exhausts (v : View N) (flags : Flags) (start : N)
    (r : Report (σ × Array (Event σ N ε)) N ε) : Prop where
  finished : r.finished = true
  nodup : (visits r.world.2.toList).Nodup
  mem_iff : ∀ m, m ∈ visits r.world.2.toList ↔
    v.contains m = true ∧ ReflTransGen (v.Leads flags) start m

theorem Explored.exhausts {visit : Phase → Visitor σ N ε}
    (h : Explored (v.ground nav flags) visited waiting start [start] c)
    (horderly : Orderly nav flags visited waiting plan) (hfinished : c.finished plan = true)
    (hanswered : c.Answered visit) (hgoes : ∀ phase, (visit phase).GoesOn flags)
    (warnings : γ → Array (Warning N)) : Exhausts v flags start (c.report plan warnings) :=
  ⟨hfinished, h.once, h.mem_visits_iff horderly hfinished (hanswered.goesOn hgoes)⟩

end Constant

section Walks

variable [Ord N] [Std.TransOrd N] {nav : Navigation σ N} {v : View N} {flags : Flags}
  {nodes : List N}

namespace BreadthFirst

def Agenda.steps (v : View N) (flags : Flags) (nodes : List N) (a : Agenda N) : Nat :=
  a.queue.length + DepthFirst.owed (fun m => (v.neighbours flags m).length) nodes a.visited

omit [Std.TransOrd N] in
theorem Agenda.length_queue_push (a : Agenda N) (n : N) :
    (a.push v flags n).queue.length = a.queue.length + (v.neighbours flags n).length := by
  rw [push, View.neighbours_eq]
  split
  · exact List.length_append
  · simp only [List.length_append]
    omega

variable {visit : Visitor σ N ε}

theorem steps_lt (hvisit : visit.Keeps nav v) (hnodes : ∀ m, v.contains m = true → m ∈ nodes)
    (c d : Course (Agenda N) σ N ε) (hview : nav.view c.world = v)
    (hstep : c.step (plan nav flags) (fun _ => visit) id flags = some d) :
    nav.view d.world = v ∧ d.control.steps v flags nodes < c.control.steps v flags nodes := by
  obtain ⟨-, ⟨next, cycles, hplan, rfl⟩ | ⟨phase, n, halt, next, hplan, rfl⟩⟩ :=
    Course.step_eq_some hstep
  · obtain ⟨n, behind, hqueue, ⟨-, -, rfl⟩ | ⟨-, -, -, rfl⟩⟩ := plan_eq_drop hplan
    all_goals
      refine ⟨hview, ?_⟩
      simp only [Course.drop, Agenda.steps, Agenda.drop, hqueue, List.length_cons]
      omega
  · obtain ⟨rfl, behind, hqueue, hn, hlive, rfl, rfl⟩ := plan_eq_call hplan
    have hafter : nav.view (c.event (fun _ => visit) .first n).after = v :=
      hvisit c.world n c.status hview
    refine ⟨hafter, ?_⟩
    rw [Navigation.contains_of_view hview] at hlive
    have howed := DepthFirst.owed_insert (fun m => (v.neighbours flags m).length)
      (hnodes n hlive) hn
    simp only [Course.call, hafter]
    split
    · simp only [Agenda.steps, Agenda.length_queue_push, Agenda.visited_push, Agenda.enter,
        hqueue, List.length_cons]
      omega
    · simp only [Agenda.steps, Agenda.enter, hqueue, List.length_cons]
      omega

theorem finished_course {world : σ} (hvisit : visit.Keeps nav (nav.view world))
    (hnodes : ∀ m, nav.contains world m = true → m ∈ nodes) {limit : Nat}
    (hlimit : (nav.view world).pushes flags nodes ≤ limit) (start : N) :
    (course nav visit id flags limit world start).finished (plan nav flags) = true := by
  refine Course.step_eq_none_iff.mp (step_iterate_eq_none
    (fun c => nav.view c.world = nav.view world)
    (fun c => c.control.steps (nav.view world) flags nodes)
    (fun c d hc h => steps_lt hvisit hnodes c d hc h) rfl (Nat.le_trans ?_ hlimit))
  simp [Agenda.steps, Course.start, Agenda.start, View.pushes, DepthFirst.owed_empty]

end BreadthFirst

variable [Std.LawfulEqOrd N]

open DepthFirst in
theorem depthFirst_exhausts (world : σ) {pre post : Visitor σ N ε}
    (hpre : pre.Keeps nav (nav.view world)) (hpost : post.Keeps nav (nav.view world))
    (hpregoes : pre.GoesOn flags) (hpostgoes : post.GoesOn flags)
    (hnodes : ∀ m, nav.contains world m = true → m ∈ nodes) {limit : Nat}
    (hlimit : 2 * (nav.view world).pushes flags nodes ≤ limit) (start : N) :
    Exhausts (nav.view world) flags start
      (depthFirst (nav.comap Prod.fst) (pre.recorded .first) (post.recorded .last) flags limit
        (world, #[]) start) := by
  have hgoes : ∀ phase, (visitors pre post phase).GoesOn flags := by
    intro phase
    cases phase with
    | first => exact hpregoes
    | last => exact hpostgoes
  have hexplored := explored_course (hpre.respects flags) (hpost.respects flags) rfl start [start]
    (by simp [View.ground]) limit
  have hcourse := depthFirst_recorded nav pre post id flags limit world start
  obtain ⟨left, q, -, hruns⟩ := depthFirst_explores (nav.comap Prod.fst) (world, #[])
    (hpre.recorded .first) (hpost.recorded .last) hnodes flags start
  have hfinished : (course nav pre post id flags limit world start).finished (plan nav flags) =
      true := congrArg Report.finished (hcourse.symm.trans (hruns limit hlimit))
  have hexhausts := hexplored.exhausts (plan_orderly nav flags) hfinished
    Course.answered_iterate hgoes Agenda.warnings
  rwa [← hcourse] at hexhausts

open BreadthFirst in
theorem breadthFirst_exhausts (world : σ) {visit : Visitor σ N ε}
    (hvisit : visit.Keeps nav (nav.view world)) (hgoes : visit.GoesOn flags)
    (hnodes : ∀ m, nav.contains world m = true → m ∈ nodes) {limit : Nat}
    (hlimit : (nav.view world).pushes flags nodes ≤ limit) (start : N) :
    Exhausts (nav.view world) flags start
      (breadthFirst (nav.comap Prod.fst) (visit.recorded .first) flags limit (world, #[])
        start) := by
  have hexplored := explored_course (hvisit.respects flags) rfl start [start]
    (by simp [View.ground]) limit
  have hexhausts := hexplored.exhausts (plan_orderly nav flags)
    (finished_course hvisit hnodes hlimit start) Course.answered_iterate (fun _ => hgoes)
    Agenda.warnings
  rwa [← breadthFirst_recorded nav visit id flags limit world start] at hexhausts

end Walks

section Reachable

variable [Ord N] [Std.TransOrd N]

def noted (world : σ × Array (Event σ N ε)) : σ × Array N :=
  (world.1, (visits world.2.toList).toArray)

omit [Ord N] [Std.TransOrd N] in
theorem recorded_projects_collect :
    ((pass : Visitor σ N Empty).recorded .first).Projects noted collect := by
  rintro ⟨world, events⟩ n status
  simp [noted, Visitor.recorded, pass, collect, visits_append_singleton]

omit [Ord N] [Std.TransOrd N] in
theorem recorded_projects_pass :
    ((pass : Visitor σ N Empty).recorded .last).Projects noted pass := by
  rintro ⟨world, events⟩ n status
  simp [noted, Visitor.recorded, pass, visits_append_singleton]

theorem reachable_eq_visits (nav : Navigation σ N) (limit : Nat) (world : σ) (n : N)
    (flags : Flags) :
    reachable nav limit world n flags =
      visits (depthFirst (nav.comap Prod.fst) ((pass : Visitor σ N Empty).recorded .first)
        (pass.recorded .last) flags limit (world, #[]) n).world.2.toList := by
  have hwalk : depthFirst (nav.comap Prod.fst) collect pass flags limit (noted (world, #[])) n =
      (depthFirst (nav.comap Prod.fst) ((pass : Visitor σ N Empty).recorded .first)
        (pass.recorded .last) flags limit (world, #[]) n).mapWorld noted :=
    depthFirst_mapWorld recorded_projects_collect recorded_projects_pass flags limit (world, #[]) n
  exact congrArg (fun r => r.world.2.toList) hwalk

end Reachable

end Walk

namespace Graph

open Walk

variable {g : Graph} {flags : Flags}

theorem WellFormed.leads_eq_joined (hg : g.WellFormed) :
    (navigation.view g).Leads flags = g.Joined flags := by
  ext a b
  rw [View.Leads, hg.mem_neighbours_iff]
  exact ⟨And.right, fun hab => ⟨(hab.hasNode hg).1, hab⟩⟩

theorem hasNode_of_joined (hg : g.WellFormed) {a b : NodeHandle} (ha : g.hasNode a = true)
    (hab : ReflTransGen (g.Joined flags) a b) : g.hasNode b = true := by
  induction hab with
  | refl => exact ha
  | tail _ hstep _ => exact (hstep.hasNode hg).2

theorem Joined.symm (hflags : flags.directed = false) {a b : NodeHandle}
    (hab : g.Joined flags a b) : g.Joined flags b a := by
  obtain hab | ⟨-, hba⟩ := hab
  · exact .inr ⟨hflags, hab⟩
  · exact .inl hba

theorem WellFormed.mem_iff_of_exhausts {σ ε : Type} (hg : g.WellFormed) {h : NodeHandle}
    {r : Report (σ × Array (Event σ NodeHandle ε)) NodeHandle ε}
    (hr : Exhausts (navigation.view g) flags h r) (m : NodeHandle) :
    m ∈ visits r.world.2.toList ↔ g.hasNode h = true ∧ ReflTransGen (g.Joined flags) h m := by
  rw [hr.mem_iff, hg.leads_eq_joined]
  constructor
  · rintro ⟨hm, hpath⟩
    refine ⟨?_, hpath⟩
    obtain heq | ⟨_, hstep, -⟩ := hpath.cases_head
    · rwa [heq]
    · exact (hstep.hasNode hg).1
  · rintro ⟨hh, hpath⟩
    exact ⟨hasNode_of_joined hg hh hpath, hpath⟩

theorem reachable_exhausts (g : Graph) (h : NodeHandle) (flags : Flags) :
    ∃ r : Report (Graph × Array (Event Graph NodeHandle Empty)) NodeHandle Empty,
      Exhausts (navigation.view g) flags h r ∧ g.reachable h flags = visits r.world.2.toList :=
  ⟨_, depthFirst_exhausts g (pass_keeps navigation _) (pass_keeps navigation _) (fun _ _ _ => rfl)
    (fun _ _ _ => rfl) (fun _ => mem_handles_of_hasNode) (g.pushes_le_stepBound flags) h,
    reachable_eq_visits navigation g.stepBound g h flags⟩

/-- The nodes that can be reached are listed, each once. A breadth-first walk that only looks, and
that no call ends, visits the same nodes. Along edges in both directions, nodes reach each other. -/
theorem reachable_ofHistory (κ ε : Type) (id : GraphId) (ops : List Operation) (flags : Flags) :
    let g := ofHistory id ops
    let nav : Navigation (Graph × κ) NodeHandle := navigation.comap Prod.fst
    (∀ h, (g.reachable h flags).Nodup ∧ ∀ m, m ∈ g.reachable h flags ↔
      g.hasNode h = true ∧ ReflTransGen (g.Joined flags) h m) ∧
    (∀ visit : Visitor (Graph × κ) NodeHandle ε, visit.Keeps nav (navigation.view g) →
      visit.GoesOn flags → ∀ h k limit, g.stepBound ≤ limit →
        let r := breadthFirst (nav.comap Prod.fst) (visit.recorded .first) flags limit
          ((g, k), #[]) h
        (visits r.world.2.toList).Perm (g.reachable h flags) ∧ r.finished = true ∧
          r.mapWorld Prod.fst = breadthFirst nav visit flags limit (g, k) h) ∧
    (flags.directed = false →
      ∀ a b, b ∈ g.reachable a flags ↔ a ∈ g.reachable b flags) := by
  intro g nav
  have hg : g.WellFormed := ofHistory_wellFormed id ops
  have hmem : ∀ h m, m ∈ g.reachable h flags ↔
      g.hasNode h = true ∧ ReflTransGen (g.Joined flags) h m := by
    intro h m
    obtain ⟨r, hr, heq⟩ := g.reachable_exhausts h flags
    rw [heq, hg.mem_iff_of_exhausts hr]
  have hnodup : ∀ h, (g.reachable h flags).Nodup := by
    intro h
    obtain ⟨r, hr, heq⟩ := g.reachable_exhausts h flags
    rw [heq]
    exact hr.nodup
  refine ⟨fun h => ⟨hnodup h, hmem h⟩, ?_, fun hflags a b => ?_⟩
  · intro visit hvisit hgoes h k limit hlimit r
    have hpushes := g.pushes_le_stepBound flags
    have hr : Exhausts (navigation.view g) flags h r :=
      breadthFirst_exhausts (g, k) hvisit hgoes (fun _ => mem_handles_of_hasNode)
        (Nat.le_trans (Nat.le_trans (Nat.le_mul_of_pos_left _ Nat.two_pos) hpushes) hlimit) h
    refine ⟨?_, hr.finished, ?_⟩
    · refine (List.perm_ext_iff_of_nodup hr.nodup (hnodup h)).mpr fun m => ?_
      rw [hg.mem_iff_of_exhausts hr, hmem]
    · exact breadthFirst_recorded_mapWorld nav visit (fun answer => answer) flags limit (g, k) h
  · have hback : ∀ a b, b ∈ g.reachable a flags → a ∈ g.reachable b flags := by
      intro a b hab
      obtain ⟨ha, hpath⟩ := (hmem a b).mp hab
      have hsymm : Std.Symm (g.Joined flags) := ⟨fun _ _ => Joined.symm hflags⟩
      exact (hmem b a).mpr ⟨hasNode_of_joined hg ha hpath, ReflTransGen.stdSymm.symm _ _ hpath⟩
    exact ⟨hback a b, hback b a⟩

/-- Three nodes on a walk in both directions, with a loop; the fourth was taken away. Every second
visit fails. -/
theorem reachable_ofHistory_loop :
    let ops : List Operation := [.putNode "a" "", .putNode "b" "", .putNode "c" "",
      .putNode "d" "", .putEdge .default "ba" "" ⟨1⟩ ⟨0⟩, .putEdge .default "bc" "" ⟨1⟩ ⟨2⟩,
      .putEdge .default "cb" "" ⟨2⟩ ⟨1⟩, .putEdge .default "cc" "" ⟨2⟩ ⟨2⟩,
      .putEdge .default "cd" "" ⟨2⟩ ⟨3⟩, .eraseNode ⟨3⟩]
    let g := ofHistory ⟨⟨0⟩⟩ ops
    let flags : Flags := { directed := false }
    let visit : Visitor (Graph × Nat) NodeHandle Nat := fun (g, k) _ _ =>
      (if k % 2 = 0 then .proceed else .fail k, g, k + 1)
    let r := breadthFirst ((navigation.comap Prod.fst).comap Prod.fst) (visit.recorded .first) flags
      g.stepBound ((g, 0), #[]) ⟨2⟩
    visit.Keeps (navigation.comap Prod.fst) (navigation.view g) ∧ visit.GoesOn flags ∧
      (visits r.world.2.toList).Perm (g.reachable ⟨2⟩ flags) ∧ r.finished = true ∧
      g.reachable ⟨2⟩ flags = [⟨2⟩, ⟨1⟩, ⟨0⟩] ∧
      (⟨0⟩ ∈ g.reachable ⟨2⟩ flags ↔ ⟨2⟩ ∈ g.reachable ⟨0⟩ flags) := by
  intro ops g flags visit r
  have hvisit : visit.Keeps (navigation.comap Prod.fst) (navigation.view g) := fun _ _ _ h => h
  have hgoes : visit.GoesOn flags := by
    rintro ⟨g, k⟩ n status
    simp only [visit]
    split <;> rfl
  obtain ⟨-, hbroad, hback⟩ := reachable_ofHistory Nat Nat ⟨⟨0⟩⟩ ops flags
  obtain ⟨hperm, hfinished, -⟩ := hbroad visit hvisit hgoes ⟨2⟩ 0 g.stepBound (Nat.le_refl _)
  exact ⟨hvisit, hgoes, hperm, hfinished, by decide +kernel, hback rfl ⟨2⟩ ⟨0⟩⟩

end Graph

end Multidigraph
