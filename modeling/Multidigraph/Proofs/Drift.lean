import Multidigraph.Proofs.Reentrance

namespace Multidigraph

namespace Walk

variable {σ γ N ε : Type}

def View.Resolves (v : View N) : Prop :=
  ∀ n, ∀ position ∈ v.outgoing n ++ v.incoming n, ∃ m, position = some m ∧ v.contains m = true

theorem drifts_eq_nil {positions : List (Option N)}
    (h : ∀ position ∈ positions, ∃ m, position = some m) (side : Side) (n : N) :
    drifts side n positions = [] := by
  refine List.filterMap_eq_nil_iff.mpr fun entry hentry => ?_
  obtain ⟨m, hm⟩ := h entry.1 (List.fst_mem_of_mem_zipIdx hentry)
  simp [hm]

section Resolves

variable {v : View N} (h : v.Resolves) (n : N)

include h

theorem View.Resolves.drifts_outgoing (side : Side) : Walk.drifts side n (v.outgoing n) = [] :=
  drifts_eq_nil (fun position hp => (h n position (List.mem_append_left _ hp)).imp
    fun _ => And.left) side n

theorem View.Resolves.drifts_incoming (side : Side) : Walk.drifts side n (v.incoming n) = [] :=
  drifts_eq_nil (fun position hp => (h n position (List.mem_append_right _ hp)).imp
    fun _ => And.left) side n

theorem View.Resolves.drifts_eq_nil (flags : Flags) : v.drifts flags n = [] := by
  simp [View.drifts_eq, h.drifts_outgoing, h.drifts_incoming]

end Resolves

/-- Whether a plan warns only of a node that waits, is not visited and is not there, when it drops
that node, and of the positions that lead nowhere. -/
structure Cautious (nav : Navigation σ N) (visited waiting : γ → N → Prop)
    (warnings : γ → Array (Warning N)) (plan : Plan γ σ N) : Prop where
  drop : ∀ {a w next cycles}, plan a w = some (.drop next cycles) →
    warnings next = warnings a ∨ ∃ n, warnings next = (warnings a).push (.left n) ∧
      waiting a n ∧ ¬ visited a n ∧ nav.contains w n = false
  call : ∀ {a w phase n halt next}, plan a w = some (.call phase n halt next) →
    warnings halt = warnings a ∧
      ∀ w', (nav.view w').Resolves → warnings (next w').1 = warnings a

section Plans

variable [Ord N] [Std.TransOrd N]

open DepthFirst in
theorem DepthFirst.plan_cautious (nav : Navigation σ N) (flags : Flags) :
    Cautious nav (fun a m => m ∈ a.visited) Agenda.Waits Agenda.warnings (plan nav flags) := by
  constructor
  case drop =>
    intro a w next cycles h
    obtain ⟨n, below, hstack, -, ⟨-, rfl⟩ | ⟨hn, hgone, rfl⟩⟩ := plan_eq_drop h
    · exact .inl rfl
    · refine .inr ⟨n, rfl, ?_, hn, hgone⟩
      rw [Agenda.Waits, hstack]
      exact List.mem_cons_self
  case call =>
    intro a w phase n halt next h
    cases phase with
    | first =>
      obtain ⟨below, -, -, -, rfl, rfl⟩ := plan_eq_first h
      refine ⟨rfl, fun w' hw' => ?_⟩
      simp [Agenda.push, hw'.drifts_eq_nil, Agenda.enter]
    | last =>
      obtain ⟨below, -, rfl, rfl⟩ := plan_eq_last h
      exact ⟨rfl, fun _ _ => rfl⟩

open BreadthFirst in
theorem BreadthFirst.plan_cautious (nav : Navigation σ N) (flags : Flags) :
    Cautious nav (fun a m => m ∈ a.visited) (fun a m => m ∈ a.queue) Agenda.warnings
      (plan nav flags) := by
  constructor
  case drop =>
    intro a w next cycles h
    obtain ⟨n, behind, hqueue, ⟨-, -, rfl⟩ | ⟨hn, hgone, -, rfl⟩⟩ := plan_eq_drop h
    · exact .inl rfl
    · refine .inr ⟨n, rfl, ?_, hn, hgone⟩
      rw [hqueue]
      exact List.mem_cons_self
  case call =>
    intro a w phase n halt next h
    obtain ⟨-, behind, -, -, -, rfl, rfl⟩ := plan_eq_call h
    refine ⟨rfl, fun w' hw' => ?_⟩
    cases hd : flags.directed <;>
      simp [Agenda.push, Agenda.enter, hw'.drifts_outgoing, hw'.drifts_incoming, hd]

end Plans

/-- How a walk warns, when it makes a report with a record of its calls after each number of steps.
After a call no position leads nowhere, so each warning is of a node that has left. -/
structure Steady (nav : Navigation σ N) (walk : Nat → Report (σ × Array (Event σ N ε)) N ε) :
    Prop where
  resolves : ∀ limit, ∀ e ∈ (walk limit).world.2.toList, (nav.view e.after).Resolves
  silent : (walk 0).warnings = #[]
  warns : ∀ limit, (walk (limit + 1)).warnings = (walk limit).warnings ∨
    ∃ n, (walk (limit + 1)).warnings = (walk limit).warnings.push (.left n) ∧
      nav.contains (walk limit).world.1 n = false ∧ n ∉ visits (walk limit).world.2.toList

theorem Steady.forall_left {nav : Navigation σ N}
    {walk : Nat → Report (σ × Array (Event σ N ε)) N ε} (h : Steady nav walk) (limit : Nat) :
    ∀ warning ∈ (walk limit).warnings.toList, ∃ n, warning = .left n := by
  induction limit with
  | zero => simp [h.silent]
  | succ limit ih =>
    obtain hsame | ⟨n, hpush, -, -⟩ := h.warns limit
    · rw [hsame]
      exact ih
    · rw [hpush, Array.toList_push, List.forall_mem_append, List.forall_mem_singleton]
      exact ⟨ih, n, rfl⟩

def Event.Spares (nav : Navigation σ N) (e : Event σ N ε) : Prop :=
  ∀ m, nav.contains e.before m = true → nav.contains e.after m = true

section Steps

variable {nav : Navigation σ N} {flags : Flags} {plan : Plan γ σ N} {visited waiting : γ → N → Prop}
  {warnings : γ → Array (Warning N)} {visit : Phase → Visitor σ N ε} {ground : Ground nav flags}
  {start : N} {seeds : List N} {c d : Course γ σ N ε}

theorem Explored.warnings_step (h : Explored ground visited waiting start seeds c)
    (hcautious : Cautious nav visited waiting warnings plan)
    (hresolves : ∀ w, ground.inv w → (nav.view w).Resolves)
    (hvisit : ∀ phase, (visit phase).Respects ground)
    (hstep : c.step plan visit id flags = some d) :
    warnings d.control = warnings c.control ∨
      ∃ n, warnings d.control = (warnings c.control).push (.left n) ∧
        nav.contains c.world n = false ∧ n ∉ visits c.events.toList ∧
        (n = start ∨ Sighted ground.leads c.events.toList n) := by
  obtain ⟨hs, ⟨next, cycles, hplan, rfl⟩ | ⟨phase, n, halt, next, hplan, rfl⟩⟩ :=
    Course.step_eq_some hstep
  · obtain hsame | ⟨n, hpush, hwaits, hnot, hgone⟩ := hcautious.drop hplan
    · exact .inl hsame
    · exact .inr ⟨n, hpush, hgone, mt ((h.tracks hs).visited_iff n).mpr hnot,
        (h.tracks hs).origin n hwaits⟩
  · obtain ⟨hhalt, hnext⟩ := hcautious.call hplan
    have hinv : ground.inv (c.event visit phase n).after := (hvisit phase).inv _ n _ h.inv
    left
    simp only [Course.call]
    split
    · exact hnext _ (hresolves _ hinv)
    · exact hhalt

theorem Explored.warnings_step_eq (h : Explored ground visited waiting start seeds c)
    (hcautious : Cautious nav visited waiting warnings plan)
    (hresolves : ∀ w, ground.inv w → (nav.view w).Resolves)
    (hvisit : ∀ phase, (visit phase).Respects ground)
    (hstep : c.step plan visit id flags = some d)
    (hthere : ∀ m, m = start ∨ Sighted ground.leads c.events.toList m →
      nav.contains c.world m = true) :
    warnings d.control = warnings c.control := by
  obtain hsame | ⟨n, -, hgone, -, horigin⟩ := h.warnings_step hcautious hresolves hvisit hstep
  · exact hsame
  · rw [hthere n horigin] at hgone
    cases hgone

theorem steady_course {control : γ} {world : σ}
    (hexplored : ∀ limit, Explored ground visited waiting start seeds
      (iterate (Course.step plan visit id flags) limit (.start control world)))
    (hcautious : Cautious nav visited waiting warnings plan)
    (hresolves : ∀ w, ground.inv w → (nav.view w).Resolves)
    (hvisit : ∀ phase, (visit phase).Respects ground) (hsilent : warnings control = #[]) :
    Steady nav fun limit =>
      (iterate (Course.step plan visit id flags) limit (.start control world)).report plan
        warnings where
  resolves limit e he := by
    have hanswered := Course.answered_iterate e he
    have hinv := (hvisit e.phase).inv _ e.node e.status ((hexplored limit).inv_before e he)
    rw [← hanswered] at hinv
    exact hresolves _ hinv
  silent := hsilent
  warns limit := by
    simp only [Course.report, iterate_succ_last]
    cases hstep : (iterate (Course.step plan visit id flags) limit
        (.start control world : Course γ σ N ε)).step plan visit id flags with
    | none => exact .inl rfl
    | some d =>
      obtain hsame | ⟨n, hpush, hgone, hnot, -⟩ :=
        (hexplored limit).warnings_step hcautious hresolves hvisit hstep
      · exact .inl hsame
      · exact .inr ⟨n, hpush, hgone, hnot⟩

theorem warnings_eq_nil {control : γ} {world : σ}
    (hexplored : ∀ limit, Explored ground visited waiting start seeds
      (iterate (Course.step plan visit id flags) limit (.start control world)))
    (hcautious : Cautious nav visited waiting warnings plan)
    (hresolves : ∀ w, ground.inv w → (nav.view w).Resolves)
    (hvisit : ∀ phase, (visit phase).Respects ground) (hsilent : warnings control = #[])
    (hstart : nav.contains world start = true)
    (hlive : ∀ w a b, ground.inv w → ground.leads w a b → nav.contains w b = true) (limit : Nat) :
    let c : Course γ σ N ε := iterate (Course.step plan visit id flags) limit (.start control world)
    (∀ e ∈ c.events.toList, e.Spares nav) →
      (∀ m, m = start ∨ Sighted ground.leads c.events.toList m → nav.contains c.world m = true) ∧
        warnings c.control = #[] := by
  induction limit with
  | zero =>
    refine fun _ => ⟨?_, hsilent⟩
    rintro m (rfl | ⟨e, he, -⟩)
    · exact hstart
    · cases he
  | succ limit ih =>
    simp only [iterate_succ_last]
    cases hstep : (iterate (Course.step plan visit id flags) limit
        (.start control world : Course γ σ N ε)).step plan visit id flags with
    | none => exact ih
    | some d =>
      intro hspares
      rw [Option.getD_some] at hspares ⊢
      have hex := hexplored limit
      have hsame := hex.warnings_step_eq hcautious hresolves hvisit hstep
      -- a step that drops an entry makes no call, and one that calls a visitor makes one call more
      obtain ⟨-, ⟨next, cycles, -, rfl⟩ | ⟨phase, n, halt, next, -, rfl⟩⟩ :=
        Course.step_eq_some hstep
      · obtain ⟨hthere, hnone⟩ := ih hspares
        exact ⟨hthere, (hsame hthere).trans hnone⟩
      · obtain ⟨hbefore, hspares⟩ := Course.forall_events_call.mp hspares
        obtain ⟨hthere, hnone⟩ := ih hbefore
        refine ⟨fun m hm => ?_, (hsame hthere).trans hnone⟩
        rw [Course.events_call, Array.toList_push, sighted_append_singleton, ← or_assoc] at hm
        obtain hm | ⟨-, hm⟩ := hm
        · exact hspares m (hthere m hm)
        · exact hlive _ _ m ((hvisit phase).inv _ n _ hex.inv) hm

end Steps

end Walk

open Walk

namespace Graph

theorem WellFormed.resolves {g : Graph} (hg : g.WellFormed) : (navigation.view g).Resolves := by
  intro h position hposition
  obtain hout | hin := List.mem_append.mp hposition
  · obtain ⟨k, hk, rfl⟩ := List.mem_map.mp hout
    obtain ⟨e, he, -⟩ := Option.map_eq_some_iff.mp (hg.mem_outEdges_iff.mp hk)
    exact ⟨e.destination, by rw [he]; rfl, (hg.edges k e he).destination⟩
  · obtain ⟨k, hk, rfl⟩ := List.mem_map.mp hin
    obtain ⟨e, he, -⟩ := Option.map_eq_some_iff.mp (hg.mem_inEdges_iff.mp hk)
    exact ⟨e.source, by rw [he]; rfl, (hg.edges k e he).source⟩

end Graph

namespace Operation

variable {g : Graph} {h : NodeHandle}

def takesNodes : Operation → Bool
  | eraseNode _ => true
  | clear => true
  | _ => false

theorem hasNode_apply {op : Operation} (hop : op.takesNodes = false) (hh : g.hasNode h = true) :
    (op.apply g).2.hasNode h = true := by
  cases op with
  | putNode id label =>
    simp only [apply, answer, Graph.putNode]
    split
    · simpa using hh
    · exact Graph.hasNode_insertNode g id label hh
  | freshNode label draws =>
    simp only [apply, answer, Graph.freshNode]
    split
    · exact hh
    · exact Graph.hasNode_insertNode g _ label hh
  | putEdge r id label s d =>
    simp only [apply, answer, Graph.putEdge]
    split
    · exact hh
    · split
      · simpa using hh
      · split
        · exact hh
        · split <;> simpa using hh
  | freshEdge r label s d draws =>
    simp only [apply, answer, Graph.freshEdge]
    split
    · exact hh
    · split <;> simpa using hh
  | eraseNode j => cases hop
  | eraseEdge k =>
    cases he : g.edge? k with
    | none => simpa [apply, answer, Graph.eraseEdge_of_none he] using hh
    | some e => simpa [apply, answer, Graph.eraseEdge_of_some he] using hh
  | updateNode j e =>
    simp only [apply, answer, Graph.updateNode]
    split <;> simpa using hh
  | updateEdge k e =>
    simp only [apply, answer, Graph.updateEdge]
    split <;> simpa using hh
  | editNode j edits => simpa [apply, answer, Graph.editNode] using hh
  | editEdge k edits => simpa [apply, answer, Graph.editEdge] using hh
  | clear => cases hop
  | clone id => simpa [apply, Graph.hasNode, Graph.node?_clone] using hh

theorem hasNode_run {ops : List Operation} (hops : ∀ op ∈ ops, op.takesNodes = false)
    (hh : g.hasNode h = true) : (run ops g).2.hasNode h = true := by
  induction ops generalizing g with
  | nil => exact hh
  | cons op ops ih =>
    obtain ⟨hop, hops⟩ := List.forall_mem_cons.mp hops
    exact ih hops (hasNode_apply hop hh)

end Operation

namespace Walk

variable {γ κ ε : Type}

theorem Course.exists_operations {plan : Plan γ (Graph × κ) NodeHandle}
    {visit : Phase → Visitor (Graph × κ) NodeHandle ε} (hvisit : ∀ phase, (visit phase).Operates)
    (flags : Flags) (control : γ) (world : Graph × κ) (limit : Nat) :
    ∃ ops, (iterate (Course.step plan visit id flags) limit (.start control world)).world.1 =
      (Operation.run ops world.1).2 := by
  have hstep : ∀ c d : Course γ (Graph × κ) NodeHandle ε,
      (∃ ops, c.world.1 = (Operation.run ops world.1).2) → c.step plan visit id flags = some d →
        ∃ ops, d.world.1 = (Operation.run ops world.1).2 := by
    rintro c d ⟨ops, hops⟩ hstep
    obtain ⟨-, ⟨next, cycles, -, rfl⟩ | ⟨phase, n, halt, next, -, rfl⟩⟩ :=
      Course.step_eq_some hstep
    · exact ⟨ops, hops⟩
    · obtain ⟨more, hmore⟩ := hvisit phase c.world n c.status
      exact ⟨ops ++ more, by rw [Operation.run_append, ← hops]; exact hmore⟩
  exact iterate_invariant hstep ⟨[], rfl⟩ limit

/-- Whether a visitor changes the graph through operations only that take no nodes away. -/
def Visitor.Spares (visit : Visitor (Graph × κ) NodeHandle ε) : Prop :=
  ∀ world n status, ∃ ops : List Operation, (∀ op ∈ ops, op.takesNodes = false) ∧
    (visit world n status).2.1 = (Operation.run ops world.1).2

theorem Visitor.Spares.operates {visit : Visitor (Graph × κ) NodeHandle ε} (h : visit.Spares) :
    visit.Operates :=
  fun world n status => (h world n status).imp fun _ => And.right

theorem Course.spares_iterate {plan : Plan γ (Graph × κ) NodeHandle}
    {visit : Phase → Visitor (Graph × κ) NodeHandle ε} {flags : Flags} {control : γ}
    {world : Graph × κ} {limit : Nat} (hvisit : ∀ phase, (visit phase).Spares) :
    ∀ e ∈ (iterate (Course.step plan visit id flags) limit (.start control world)).events.toList,
      e.Spares (Graph.navigation.comap Prod.fst) := by
  intro e he m hm
  obtain ⟨ops, hops, hafter⟩ := hvisit e.phase e.before e.node e.status
  rw [← Course.answered_iterate e he] at hafter
  change e.after.1.hasNode m = true
  rw [hafter]
  exact Operation.hasNode_run hops hm

/-- Whatever its visitors do to a graph through its operations, a walk meets no position that leads
nowhere: all its warnings are of nodes that have left. There are none when the walk starts at a node
that is there and no call takes a node away. All in all the walk changes the graph through its
operations too, so it may be part of what another visitor does. The record of the calls changes
nothing. -/
theorem walks_steady_ofHistory (graph : GraphId) (history : List Operation) (k : κ)
    (pre post visit : Visitor (Graph × κ) NodeHandle ε) (hpre : pre.Operates)
    (hpost : post.Operates) (hvisit : visit.Operates) (flags : Flags) (start : NodeHandle) :
    let nav : Navigation (Graph × κ) NodeHandle := Graph.navigation.comap Prod.fst
    let world := (Graph.ofHistory graph history, k)
    let deep limit := depthFirst (nav.comap Prod.fst) (pre.recorded .first) (post.recorded .last)
      flags limit (world, #[]) start
    let broad limit := breadthFirst (nav.comap Prod.fst) (visit.recorded .first) flags limit
      (world, #[]) start
    (Steady nav deep ∧
      (∀ limit, ∀ warning ∈ (deep limit).warnings.toList, ∃ n, warning = .left n) ∧
      (world.1.hasNode start = true → ∀ limit,
        (∀ e ∈ (deep limit).world.2.toList, e.Spares nav) → (deep limit).warnings = #[]) ∧
      ∀ limit, (∃ ops, (deep limit).world.1.1 = (Operation.run ops world.1).2) ∧
        (deep limit).mapWorld Prod.fst = depthFirst nav pre post flags limit world start) ∧
    (Steady nav broad ∧
      (∀ limit, ∀ warning ∈ (broad limit).warnings.toList, ∃ n, warning = .left n) ∧
      (world.1.hasNode start = true → ∀ limit,
        (∀ e ∈ (broad limit).world.2.toList, e.Spares nav) → (broad limit).warnings = #[]) ∧
      ∀ limit, (∃ ops, (broad limit).world.1.1 = (Operation.run ops world.1).2) ∧
        (broad limit).mapWorld Prod.fst = breadthFirst nav visit flags limit world start) := by
  intro nav world deep broad
  have hinv : (Graph.ground κ flags).inv world := Graph.ofHistory_wellFormed graph history
  have hresolves : ∀ w, (Graph.ground κ flags).inv w → (nav.view w).Resolves := fun w hw =>
    Graph.WellFormed.resolves hw
  have hlive : ∀ w a b, (Graph.ground κ flags).inv w → (Graph.ground κ flags).leads w a b →
      nav.contains w b = true := fun w a b hw hab => (Graph.Joined.hasNode hw hab).2
  constructor
  · have hoperates : ∀ phase, (DepthFirst.visitors pre post phase).Operates := by
      intro phase
      cases phase with
      | first => exact hpre
      | last => exact hpost
    have hrespects := fun phase => (hoperates phase).respects flags
    have hexplored := DepthFirst.explored_course (hpre.respects flags) (hpost.respects flags) hinv
      start [] (by simp)
    have hcautious := DepthFirst.plan_cautious nav flags
    have hdeep : deep = fun limit =>
        (DepthFirst.course nav pre post id flags limit world start).report
          (DepthFirst.plan nav flags) DepthFirst.Agenda.warnings :=
      funext fun limit => depthFirst_recorded nav pre post id flags limit world start
    have hsteady : Steady nav deep := by
      rw [hdeep]
      exact steady_course hexplored hcautious hresolves hrespects rfl
    refine ⟨hsteady, hsteady.forall_left, fun hstart limit => ?_, fun limit => ⟨?_, ?_⟩⟩
    · rw [hdeep]
      exact fun hspares => (warnings_eq_nil hexplored hcautious hresolves hrespects rfl hstart hlive
        limit hspares).2
    · rw [hdeep]
      exact Course.exists_operations hoperates flags _ world limit
    · exact depthFirst_recorded_mapWorld nav pre post id flags limit world start
  · have hexplored := BreadthFirst.explored_course (hvisit.respects flags) hinv start [] (by simp)
    have hcautious := BreadthFirst.plan_cautious nav flags
    have hbroad : broad = fun limit =>
        (BreadthFirst.course nav visit id flags limit world start).report
          (BreadthFirst.plan nav flags) BreadthFirst.Agenda.warnings :=
      funext fun limit => breadthFirst_recorded nav visit id flags limit world start
    have hsteady : Steady nav broad := by
      rw [hbroad]
      exact steady_course hexplored hcautious hresolves (fun _ => hvisit.respects flags) rfl
    refine ⟨hsteady, hsteady.forall_left, fun hstart limit => ?_, fun limit => ⟨?_, ?_⟩⟩
    · rw [hbroad]
      exact fun hspares => (warnings_eq_nil hexplored hcautious hresolves
        (fun _ => hvisit.respects flags) rfl hstart hlive limit hspares).2
    · rw [hbroad]
      exact Course.exists_operations (fun _ => hvisit) flags _ world limit
    · exact breadthFirst_recorded_mapWorld nav visit id flags limit world start

/-- The visit of the first node makes edges to a node that a later visit may take away. -/
theorem walks_steady_detour :
    let history : List Operation := [.putNode "a" "", .putNode "b" "", .putNode "c" "",
      .putEdge .default "ab" "" ⟨0⟩ ⟨1⟩, .putEdge .default "ac" "" ⟨0⟩ ⟨2⟩]
    let adds (n : NodeHandle) : List Operation :=
      if n = ⟨0⟩ then [.putNode "d" "", .putEdge .default "ad" "" ⟨0⟩ ⟨3⟩] else []
    let takes (n : NodeHandle) : List Operation := if n = ⟨1⟩ then [.eraseNode ⟨3⟩] else adds n
    let visit (changes : NodeHandle → List Operation) : Visitor (Graph × Unit) NodeHandle Empty :=
      fun (g, _) n _ => (.proceed, (Operation.run (changes n) g).2, ())
    let nav : Navigation (Graph × Unit) NodeHandle := Graph.navigation.comap Prod.fst
    let world := (Graph.ofHistory ⟨⟨0⟩⟩ history, ())
    let deep changes limit := depthFirst (nav.comap Prod.fst) ((visit changes).recorded .first)
      (pass.recorded .last) {} limit (world, #[]) ⟨0⟩
    let broad changes limit := breadthFirst (nav.comap Prod.fst) ((visit changes).recorded .first)
      {} limit (world, #[]) ⟨0⟩
    (visit adds).Spares ∧ (visit takes).Operates ∧
      (pass : Visitor (Graph × Unit) NodeHandle Empty).Spares ∧
      Steady nav (deep takes) ∧ Steady nav (broad takes) ∧
      (deep takes 20).warnings = #[.left ⟨3⟩] ∧ (broad takes 20).warnings = #[.left ⟨3⟩] ∧
      (∀ limit, ∀ e ∈ (deep adds limit).world.2.toList, e.Spares nav) ∧
      (∀ limit, (deep adds limit).warnings = #[]) ∧
      (∀ limit, ∀ e ∈ (broad adds limit).world.2.toList, e.Spares nav) ∧
      ∀ limit, (broad adds limit).warnings = #[] := by
  intro history adds takes visit nav world deep broad
  have hadds : (visit adds).Spares := by
    refine fun (_, _) n _ => ⟨adds n, ?_, rfl⟩
    by_cases hn : n = ⟨0⟩ <;> simp [adds, hn, Operation.takesNodes]
  have hpass : (pass : Visitor (Graph × Unit) NodeHandle Empty).Spares :=
    fun _ _ _ => ⟨[], by simp, rfl⟩
  have htakes : (visit takes).Operates := fun (_, _) n _ => ⟨takes n, rfl⟩
  obtain ⟨⟨hdeep, -⟩, hbroad, -⟩ := walks_steady_ofHistory ⟨⟨0⟩⟩ history () (visit takes) pass
    (visit takes) htakes hpass.operates htakes {} ⟨0⟩
  obtain ⟨⟨-, -, hdeepAdds, -⟩, -, -, hbroadAdds, -⟩ := walks_steady_ofHistory ⟨⟨0⟩⟩ history ()
    (visit adds) pass (visit adds) hadds.operates hpass.operates hadds.operates {} ⟨0⟩
  have hstart : world.1.hasNode ⟨0⟩ = true := by decide +kernel
  have hdeepSpares : ∀ limit, ∀ e ∈ (deep adds limit).world.2.toList, e.Spares nav := by
    intro limit
    have hrecord : deep adds limit = _ :=
      depthFirst_recorded nav (visit adds) pass id {} limit world ⟨0⟩
    rw [hrecord]
    refine Course.spares_iterate fun phase => ?_
    cases phase with
    | first => exact hadds
    | last => exact hpass
  have hbroadSpares : ∀ limit, ∀ e ∈ (broad adds limit).world.2.toList, e.Spares nav := by
    intro limit
    have hrecord : broad adds limit = _ :=
      breadthFirst_recorded nav (visit adds) id {} limit world ⟨0⟩
    rw [hrecord]
    exact Course.spares_iterate fun _ => hadds
  exact ⟨hadds, htakes, hpass, hdeep, hbroad, by decide +kernel, by decide +kernel, hdeepSpares,
    fun limit => hdeepAdds hstart limit (hdeepSpares limit), hbroadSpares,
    fun limit => hbroadAdds hstart limit (hbroadSpares limit)⟩

end Walk

end Multidigraph
