import Multidigraph.Proofs.Agenda

namespace Multidigraph.Walk

variable {σ γ N ε : Type}

section Through

variable {α : Type} {p : α → Bool}

def through (p : α → Bool) (xs : List α) : List α := xs.take (xs.findIdx p + 1)

theorem through_of_none {xs : List α} (h : ∀ x ∈ xs, p x = false) : through p xs = xs := by
  rw [through, List.findIdx_eq_length.mpr (by simpa using h)]
  exact List.take_of_length_le (Nat.le_succ _)

theorem through_cons (x : α) (xs : List α) :
    through p (x :: xs) = if p x then [x] else x :: through p xs := by
  cases h : p x <;> simp [through, List.findIdx_cons, h]

theorem through_append_cons {xs : List α} {x : α} (hxs : ∀ y ∈ xs, p y = false) (hx : p x = true)
    (ys : List α) : through p (xs ++ x :: ys) = xs ++ [x] := by
  induction xs with
  | nil => simp [through_cons, hx]
  | cons y xs ih =>
    have hy : p y = false := hxs y List.mem_cons_self
    rw [List.cons_append, through_cons, ih fun z hz => hxs z (List.mem_cons_of_mem _ hz)]
    simp [hy]

variable {β : Type} {f : α → Option β}

theorem filterMap_through (hf : ∀ x, (f x).isSome = p x) (xs : List α) :
    (through p xs).filterMap f = (xs.filterMap f).take 1 := by
  induction xs with
  | nil => rfl
  | cons x xs ih =>
    have hx := hf x
    rw [through_cons]
    cases hfx : f x with
    | none =>
      rw [hfx, Option.isSome_none] at hx
      simp [← hx, hfx, ih]
    | some y =>
      rw [hfx, Option.isSome_some] at hx
      simp [← hx, hfx]

theorem filterMap_through_of_none (hf : ∀ x, p x = true → f x = none) (xs : List α) :
    (through p xs).filterMap f = (xs.takeWhile (!p ·)).filterMap f := by
  induction xs with
  | nil => rfl
  | cons x xs ih =>
    rw [through_cons]
    cases hx : p x with
    | true => simp [hx, hf x hx]
    | false => simp [hx, List.filterMap_cons, ih]

end Through

section Answers

def Answer.fails : Answer ε → Bool
  | .fail _ => true
  | _ => false

def Answer.stops : Answer ε → Bool
  | .stop => true
  | _ => false

def Answer.forgiven : Answer ε → Answer ε
  | .fail _ => .proceed
  | answer => answer

def Answer.overruled : Answer ε → Answer ε
  | .stop => .proceed
  | answer => answer

def Event.failure? (e : Event σ N ε) : Option (Failure N ε) :=
  match e.answer with
  | .fail error => some ⟨e.node, error⟩
  | _ => none

def Status.forgiven (s : Status N ε) : Status N ε := { s with failures := #[] }

def Event.forgiven (e : Event σ N ε) : Event σ N ε := { e with status := e.status.forgiven }

def Visitor.IgnoresFailures (visit : Visitor σ N ε) : Prop :=
  ∀ world n (s s' : Status N ε), s.cycles = s'.cycles → visit world n s = visit world n s'

theorem Answer.goesOn_forgiven {flags : Flags} (h : flags.continueOnError = true)
    (a : Answer ε) : flags.goesOn a.forgiven = flags.goesOn a := by
  cases a <;> simp [Answer.forgiven, Flags.goesOn, h]

theorem Answer.goesOn_eq_of_not_fails {a : Answer ε} (h : a.fails = false) (flags : Flags)
    (goOn goOn' : Bool) :
    Flags.goesOn { flags with continueOnError := goOn } a =
      Flags.goesOn { flags with continueOnError := goOn' } a := by
  cases a with
  | proceed | stop => rfl
  | fail e => cases h

theorem Answer.goesOn_of_fails {a : Answer ε} (h : a.fails = true) {flags : Flags}
    (hflags : flags.continueOnError = false) : flags.goesOn a = false := by
  cases a with
  | proceed | stop => cases h
  | fail e => exact hflags

theorem Answer.overruled_of_not_stops {a : Answer ε} (h : a.stops = false) : a.overruled = a := by
  cases a with
  | proceed | fail => rfl
  | stop => cases h

theorem Answer.goesOn_of_stops {a : Answer ε} (h : a.stops = true) (flags : Flags) :
    flags.goesOn a = false := by
  cases a with
  | proceed | fail => cases h
  | stop => rfl

theorem Status.note_forgiven (s : Status N ε) (n : N) (a : Answer ε) :
    s.forgiven.note n a.forgiven = (s.note n a).forgiven := by
  cases a <;> rfl

theorem Status.forgiven_addCycles (s : Status N ε) (ns : List N) :
    (s.addCycles ns).forgiven = s.forgiven.addCycles ns := rfl

theorem Event.isSome_failure? (e : Event σ N ε) : e.failure?.isSome = e.answer.fails := by
  unfold failure?
  cases e.answer <;> rfl

theorem Event.failure?_of_stops (e : Event σ N ε) (h : e.answer.stops = true) :
    e.failure? = none := by
  unfold failure?
  cases ha : e.answer with
  | proceed | stop => rfl
  | fail => rw [ha] at h; cases h

theorem Status.failures_note (s : Status N ε) (e : Event σ N ε) :
    (s.note e.node e.answer).failures.toList = s.failures.toList ++ e.failure?.toList := by
  unfold Event.failure?
  cases e.answer <;> simp [Status.note]

end Answers

/-- What answers do to a walk that makes the report `run heed goOn` with a record of the calls, when
its answers are heeded so and failures let it go on or not. -/
structure Contains (run : (Answer ε → Answer ε) → Bool → Report (σ × Array (Event σ N ε)) N ε) :
    Prop where
  /-- The failures on record are those of the calls that failed, in the order of the calls. -/
  failures : ∀ goOn,
    (run id goOn).status.failures.toList =
      (run id goOn).world.2.toList.filterMap Event.failure?
  /-- A walk that goes on after failures is the walk that hears of none, but for the record. -/
  forgiven :
    (run .forgiven true).world.1 = (run id true).world.1 ∧
    (run .forgiven true).world.2.toList = (run id true).world.2.toList.map Event.forgiven ∧
    (run .forgiven true).status = (run id true).status.forgiven ∧
    (run .forgiven true).finished = (run id true).finished
  /-- A walk that does not go on after failures ends with the first call that fails. -/
  cut :
    (run id false).world.2.toList = through (·.answer.fails) (run id true).world.2.toList ∧
    (run id false).status.failures.toList =
      ((run id true).world.2.toList.filterMap Event.failure?).take 1 ∧
    (run id false).finished =
      ((run id true).finished || (run id true).world.2.toList.any (·.answer.fails))
  /-- A walk ends with the first call that refuses to go on, and the refusal is no failure. -/
  stop : ∀ goOn,
    (run id goOn).world.2.toList = through (·.answer.stops) (run .overruled goOn).world.2.toList ∧
    (run id goOn).status.failures.toList =
      ((run .overruled goOn).world.2.toList.takeWhile (!·.answer.stops)).filterMap
        Event.failure? ∧
    (run id goOn).finished =
      ((run .overruled goOn).finished ||
        (run .overruled goOn).world.2.toList.any (·.answer.stops))

namespace Course

variable {plan : Plan γ σ N} {visit : Phase → Visitor σ N ε} {heed heed' : Answer ε → Answer ε}
  {flags flags' : Flags} {c d : Course γ σ N ε}

section Failures

def Recorded (c : Course γ σ N ε) : Prop :=
  c.status.failures.toList = c.events.toList.filterMap Event.failure?

theorem Recorded.step (hc : c.Recorded) (h : c.step plan visit id flags = some d) :
    d.Recorded := by
  unfold Recorded at hc ⊢
  obtain ⟨-, ⟨next, cycles, -, rfl⟩ | ⟨phase, n, halt, next, -, rfl⟩⟩ := step_eq_some h
  · exact hc
  · have hnote := c.status.failures_note (c.event visit phase n)
    have hcall : (c.call visit id flags phase n halt next).status.failures =
        (c.status.note n (c.event visit phase n).answer).failures := rfl
    have hone : [c.event visit phase n].filterMap Event.failure? =
        (c.event visit phase n).failure?.toList := by
      cases h : (c.event visit phase n).failure? <;> simp [h]
    rw [events_call, Array.toList_push, List.filterMap_append, ← hc, hcall, hone]
    exact hnote

variable (plan visit flags) in
theorem recorded_iterate (control : γ) (world : σ) (limit : Nat) :
    (iterate (Course.step plan visit id flags) limit (start control world)).Recorded := by
  have hstart : (start control world : Course γ σ N ε).Recorded := rfl
  exact iterate_invariant (fun _ _ => Recorded.step) hstart limit

end Failures

section Forgiven

def forgiven (c : Course γ σ N ε) : Course γ σ N ε :=
  { c with events := c.events.map Event.forgiven, status := c.status.forgiven }

theorem event_forgiven (hvisit : ∀ phase, (visit phase).IgnoresFailures) (phase : Phase) (n : N) :
    c.forgiven.event visit phase n = (c.event visit phase n).forgiven := by
  have hsame := hvisit phase c.world n c.status.forgiven c.status rfl
  simp [event, forgiven, hsame, Event.forgiven]

theorem act_forgiven (hvisit : ∀ phase, (visit phase).IgnoresFailures)
    (hflags : flags.continueOnError = true) (move : Move γ σ N) :
    c.forgiven.act visit Answer.forgiven flags move = (c.act visit id flags move).forgiven := by
  cases move with
  | drop next cycles => rfl
  | call phase n halt next =>
    have hgo := Answer.goesOn_forgiven hflags (c.event visit phase n).answer
    have hnote := c.status.note_forgiven n (c.event visit phase n).answer
    have hevent := event_forgiven (c := c) hvisit phase n
    simp only [act, call, hevent]
    simp [Event.forgiven, forgiven, hgo, hnote, Status.forgiven_addCycles]

theorem step_forgiven (hvisit : ∀ phase, (visit phase).IgnoresFailures)
    (hflags : flags.continueOnError = true) (c : Course γ σ N ε) :
    c.forgiven.step plan visit Answer.forgiven flags =
      (c.step plan visit id flags).map forgiven := by
  have hact : c.forgiven.act visit Answer.forgiven flags =
      forgiven ∘ c.act visit id flags := funext (act_forgiven hvisit hflags)
  unfold step
  rw [hact]
  cases hs : c.stopped with
  | true => simp [forgiven, hs]
  | false => simp [forgiven, hs]

variable (plan flags) in
theorem iterate_forgiven (hvisit : ∀ phase, (visit phase).IgnoresFailures)
    (hflags : flags.continueOnError = true) (control : γ) (world : σ) (limit : Nat) :
    iterate (step plan visit Answer.forgiven flags) limit (start control world) =
      (iterate (step plan visit id flags) limit (start control world)).forgiven := by
  have hstart : (start control world : Course γ σ N ε).forgiven = start control world := by
    simp [start, forgiven, Status.forgiven]
  have hstep : ∀ c : Course γ σ N ε, c.forgiven.step plan visit Answer.forgiven flags =
      (c.step plan visit id flags).map forgiven := step_forgiven hvisit hflags
  rw [← iterate_map hstep, hstart]

end Forgiven

section Cut

/-- A walk that ends with the first call of which `p` holds, beside one that need not. -/
def CutFrom (plan : Plan γ σ N) (p : Answer ε → Bool) (c d : Course γ σ N ε) : Prop :=
  c.events.toList = through (p ·.answer) d.events.toList ∧
    c.finished plan = (d.finished plan || d.events.toList.any (p ·.answer))

inductive Cuts (p : Answer ε → Bool) (c d : Course γ σ N ε) : Prop
  | together (heq : c = d) (hnone : ∀ e ∈ d.events.toList, p e.answer = false)
  | ended (hstop : c.stopped = true) (done : List (Event σ N ε)) (e : Event σ N ε)
      (more : List (Event σ N ε)) (hnone : ∀ e ∈ done, p e.answer = false)
      (he : p e.answer = true) (hc : c.events.toList = done ++ [e])
      (hd : d.events.toList = done ++ e :: more)

theorem events_step (h : c.step plan visit heed flags = some d) :
    ∃ more, d.events.toList = c.events.toList ++ more := by
  obtain ⟨-, ⟨next, cycles, -, rfl⟩ | ⟨phase, n, halt, next, -, rfl⟩⟩ := step_eq_some h
  · exact ⟨[], by simp [drop]⟩
  · exact ⟨[c.event visit phase n], by simp⟩

theorem Cuts.step {p : Answer ε → Bool}
    (hsame : ∀ a, p a = false → heed a = heed' a ∧ flags.goesOn (heed a) = flags'.goesOn (heed' a))
    (hstop : ∀ a, p a = true → flags.goesOn (heed a) = false) (h : Cuts p c d) :
    Cuts p ((c.step plan visit heed flags).getD c) ((d.step plan visit heed' flags').getD d) := by
  cases h with
  | together heq hnone =>
    subst heq
    cases hs : c.stopped with
    | true => simpa [Course.step, hs] using Cuts.together rfl hnone
    | false =>
      cases hm : plan c.control c.world with
      | none => simpa [Course.step, hs, hm] using Cuts.together rfl hnone
      | some move =>
        simp only [Course.step, hs, hm, Bool.false_eq_true, if_false, Option.map_some,
          Option.getD_some]
        cases move with
        | drop next cycles => exact .together rfl hnone
        | call phase n halt next =>
          cases hp : p (c.event visit phase n).answer with
          | false =>
            obtain ⟨hheed, hgo⟩ := hsame _ hp
            refine .together ?_ ?_
            · simp [act, call, hheed, ← hgo]
            · exact forall_events_call.mpr ⟨hnone, hp⟩
          | true =>
            refine .ended ?_ c.events.toList (c.event visit phase n) [] hnone hp ?_ ?_
            · simp [act, hstop _ hp]
            · simp [act]
            · simp [act]
  | ended hs done e more hnone he hc hd =>
    have hc' : (c.step plan visit heed flags).getD c = c := by simp [Course.step, hs]
    rw [hc']
    cases hstep : d.step plan visit heed' flags' with
    | none => exact .ended hs done e more hnone he hc hd
    | some d' =>
      obtain ⟨more', hmore⟩ := events_step hstep
      refine .ended hs done e (more ++ more') hnone he hc ?_
      simp [hmore, hd]

theorem Cuts.cutFrom {p : Answer ε → Bool} (h : Cuts p c d) : CutFrom plan p c d := by
  cases h with
  | together heq hnone =>
    subst heq
    refine ⟨(through_of_none hnone).symm, ?_⟩
    have hany : c.events.toList.any (p ·.answer) = false :=
      List.any_eq_false.mpr fun e he => by simp [hnone e he]
    rw [hany, Bool.or_false]
  | ended hs done e more hnone he hc hd =>
    refine ⟨?_, ?_⟩
    · rw [hc, hd, through_append_cons hnone he]
    · simp [finished, hs, hd, he]

variable (plan visit heed heed' flags flags') in
theorem cutFrom_iterate (p : Answer ε → Bool)
    (hsame : ∀ a, p a = false → heed a = heed' a ∧ flags.goesOn (heed a) = flags'.goesOn (heed' a))
    (hstop : ∀ a, p a = true → flags.goesOn (heed a) = false) (control : γ) (world : σ)
    (limit : Nat) :
    CutFrom plan p (iterate (step plan visit heed flags) limit (start control world))
      (iterate (step plan visit heed' flags') limit (start control world)) := by
  refine Cuts.cutFrom (iterate_relation (fun c d => Cuts.step hsame hstop) ?_ limit)
  exact .together rfl (by simp [start])

end Cut

theorem contains (plan : Plan γ σ N) {visit : Phase → Visitor σ N ε}
    (hvisit : ∀ phase, (visit phase).IgnoresFailures) (warnings : γ → Array (Warning N))
    (flags : Flags) (limit : Nat) (control : γ) (world : σ) :
    Contains fun heed goOn =>
      (iterate (step plan visit heed { flags with continueOnError := goOn }) limit
        (start control world)).report plan warnings := by
  constructor
  case failures =>
    intro goOn
    exact recorded_iterate plan visit { flags with continueOnError := goOn } control world limit
  case forgiven =>
    have hrun := iterate_forgiven plan { flags with continueOnError := true } hvisit rfl control
      world limit
    simp [hrun, report, forgiven, finished]
  case cut =>
    obtain ⟨hevents, hfinished⟩ := cutFrom_iterate plan visit id id
      { flags with continueOnError := false } { flags with continueOnError := true } Answer.fails
      (fun _ ha => ⟨rfl, Answer.goesOn_eq_of_not_fails ha flags false true⟩)
      (fun _ ha => Answer.goesOn_of_fails ha rfl) control world limit
    refine ⟨hevents, ?_, hfinished⟩
    have hrecorded := recorded_iterate plan visit { flags with continueOnError := false } control
      world limit
    rw [Recorded, hevents, filterMap_through Event.isSome_failure?] at hrecorded
    exact hrecorded
  case stop =>
    intro goOn
    obtain ⟨hevents, hfinished⟩ := cutFrom_iterate plan visit id Answer.overruled
      { flags with continueOnError := goOn } { flags with continueOnError := goOn } Answer.stops
      (fun _ ha => by rw [Answer.overruled_of_not_stops ha]; exact ⟨rfl, rfl⟩)
      (fun _ ha => Answer.goesOn_of_stops ha _) control world limit
    refine ⟨hevents, ?_, hfinished⟩
    have hrecorded := recorded_iterate plan visit { flags with continueOnError := goOn } control
      world limit
    rw [Recorded, hevents, filterMap_through_of_none Event.failure?_of_stops] at hrecorded
    exact hrecorded

end Course

/-- In both walks, failures are put on record and change nothing else, or they end the walk; and a
refusal to go on ends it. The record of the calls changes nothing about a walk. -/
theorem failures_contained [Ord N] [Std.TransOrd N] (nav : Navigation σ N)
    (pre post visit : Visitor σ N ε) (hpre : pre.IgnoresFailures) (hpost : post.IgnoresFailures)
    (hvisit : visit.IgnoresFailures) (flags : Flags) (limit : Nat) (world : σ) (n : N) :
    let deep (heed : Answer ε → Answer ε) (goOn : Bool) :=
      depthFirst (nav.comap Prod.fst) ((pre.recorded .first).heeded heed)
        ((post.recorded .last).heeded heed) { flags with continueOnError := goOn } limit
        (world, #[]) n
    let broad (heed : Answer ε → Answer ε) (goOn : Bool) :=
      breadthFirst (nav.comap Prod.fst) ((visit.recorded .first).heeded heed)
        { flags with continueOnError := goOn } limit (world, #[]) n
    (Contains deep ∧ ∀ heed goOn, (deep heed goOn).mapWorld Prod.fst =
      depthFirst nav (pre.heeded heed) (post.heeded heed) { flags with continueOnError := goOn }
        limit world n) ∧
    (Contains broad ∧ ∀ heed goOn, (broad heed goOn).mapWorld Prod.fst =
      breadthFirst nav (visit.heeded heed) { flags with continueOnError := goOn } limit world
        n) := by
  intro deep broad
  refine ⟨⟨?_, fun heed goOn => ?_⟩, ⟨?_, fun heed goOn => ?_⟩⟩
  · have hvisitors : ∀ phase, (DepthFirst.visitors pre post phase).IgnoresFailures := by
      intro phase
      cases phase with
      | first => exact hpre
      | last => exact hpost
    have hcourse := Course.contains (DepthFirst.plan nav flags) hvisitors
      DepthFirst.Agenda.warnings flags limit (.start n) world
    have hdeep : deep = _ := funext fun heed => funext fun goOn => depthFirst_recorded nav pre post
      heed { flags with continueOnError := goOn } limit world n
    rw [hdeep]
    exact hcourse
  · exact depthFirst_recorded_mapWorld nav pre post heed _ limit world n
  · have hcourse := Course.contains (BreadthFirst.plan nav flags) (fun _ => hvisit)
      BreadthFirst.Agenda.warnings flags limit (.start n) world
    have hbroad : broad = _ := funext fun heed => funext fun goOn => breadthFirst_recorded nav visit
      heed { flags with continueOnError := goOn } limit world n
    rw [hbroad]
    exact hcourse
  · exact breadthFirst_recorded_mapWorld nav visit heed _ limit world n

/-- First visits fail at odd nodes and refuse to go on once a cycle was found; last visits take
their nodes out of the world, and fail too. -/
theorem failures_contained_ring :
    let t : AdjacencyTable := ⟨#[[some 1], [some 2, some 0], [some 3], []], #[], 0, []⟩
    let pre : Visitor AdjacencyTable Nat Unit := fun t n status =>
      (if n % 2 = 1 then .fail () else if status.cycles.size = 2 then .stop else .proceed, t)
    let post : Visitor AdjacencyTable Nat Unit := fun t n _ => (.fail (), t.drop n)
    let deep (heed : Answer Unit → Answer Unit) (goOn : Bool) :=
      depthFirst (AdjacencyTable.navigation.comap Prod.fst) ((pre.recorded .first).heeded heed)
        ((post.recorded .last).heeded heed) { continueOnError := goOn } 20 (t, #[]) 0
    let broad (heed : Answer Unit → Answer Unit) (goOn : Bool) :=
      breadthFirst (AdjacencyTable.navigation.comap Prod.fst) ((pre.recorded .first).heeded heed)
        { continueOnError := goOn } 20 (t, #[]) 0
    (pre.IgnoresFailures ∧ post.IgnoresFailures) ∧ Contains deep ∧ Contains broad ∧
      (deep id true).status.failures.toList.map Failure.node = [1, 3, 3, 2, 1, 0] ∧
      (deep id false).status.failures.toList.map Failure.node = [1] := by
  intro t pre post deep broad
  have hpre : pre.IgnoresFailures := by
    intro t n s s' hcycles
    simp only [pre, hcycles]
  have hpost : post.IgnoresFailures := fun _ _ _ _ _ => rfl
  obtain ⟨⟨hdeep, -⟩, hbroad, -⟩ := failures_contained AdjacencyTable.navigation pre post pre hpre
    hpost hpre {} 20 t 0
  exact ⟨⟨hpre, hpost⟩, hdeep, hbroad, by decide +kernel, by decide +kernel⟩

end Multidigraph.Walk
