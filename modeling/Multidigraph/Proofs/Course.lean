import Multidigraph.Proofs.CallLog

namespace Multidigraph.Walk

variable {σ τ γ N ε : Type}

section Throughout

variable {α : Type} {p : List α → α → Prop} {xs : List α} {y : α}

def Throughout (p : List α → α → Prop) (xs : List α) : Prop :=
  ∀ earlier x later, xs = earlier ++ x :: later → p earlier x

theorem throughout_nil : Throughout p [] := by
  intro earlier x later h
  simp at h

theorem append_singleton_eq_iff {earlier later : List α} {x : α} :
    xs ++ [y] = earlier ++ x :: later ↔
      (later = [] ∧ earlier = xs ∧ x = y) ∨
        ∃ rest, later = rest ++ [y] ∧ xs = earlier ++ x :: rest := by
  constructor
  · intro h
    obtain rfl | ⟨rest, z, rfl⟩ := later.eq_nil_or_concat
    · obtain ⟨rfl, hx⟩ := List.append_inj' h rfl
      exact .inl ⟨rfl, rfl, (List.cons.inj hx).1.symm⟩
    · rw [List.concat_eq_append, ← List.cons_append, ← List.append_assoc] at h
      obtain ⟨hxs, hz⟩ := List.append_inj' h rfl
      rw [List.concat_eq_append, ← (List.cons.inj hz).1]
      exact .inr ⟨rest, rfl, hxs⟩
  · rintro (⟨rfl, rfl, rfl⟩ | ⟨rest, rfl, rfl⟩)
    · rfl
    · simp

theorem throughout_append_singleton :
    Throughout p (xs ++ [y]) ↔ Throughout p xs ∧ p xs y := by
  constructor
  · intro h
    exact ⟨fun earlier x later hxs => h earlier x (later ++ [y]) (by simp [hxs]), h xs y [] rfl⟩
  · rintro ⟨hxs, hy⟩ earlier x later h
    obtain ⟨-, rfl, rfl⟩ | ⟨rest, -, h⟩ := append_singleton_eq_iff.mp h
    · exact hy
    · exact hxs earlier x rest h

theorem throughout_cons {x : α} :
    Throughout p (x :: xs) ↔ p [] x ∧ Throughout (fun earlier => p (x :: earlier)) xs := by
  constructor
  · intro h
    exact ⟨h [] x xs rfl, fun earlier y later hxs => h (x :: earlier) y later (by simp [hxs])⟩
  · rintro ⟨hx, hxs⟩ earlier y later h
    cases earlier with
    | nil =>
      obtain ⟨rfl, -⟩ := List.cons.inj h
      exact hx
    | cons z earlier =>
      obtain ⟨rfl, hrest⟩ := List.cons.inj h
      exact hxs earlier y later hrest

end Throughout

structure Event (σ N ε : Type) extends Call N ε where
  before : σ
  answer : Answer ε
  after : σ

def Visitor.recorded (phase : Phase) (visit : Visitor σ N ε) :
    Visitor (σ × Array (Event σ N ε)) N ε :=
  fun (world, events) n status =>
    let (answer, after) := visit world n status
    (answer, after, events.push { phase, node := n, status, before := world, answer, after })

/-- The visitor whose answers reach the walk as `heed` has them. -/
def Visitor.heeded (heed : Answer ε → Answer ε) (visit : Visitor σ N ε) : Visitor σ N ε :=
  fun world n status =>
    let (answer, world) := visit world n status
    (heed answer, world)

theorem Visitor.recorded_projects (phase : Phase) (heed : Answer ε → Answer ε)
    (visit : Visitor σ N ε) :
    ((visit.recorded phase).heeded heed).Projects Prod.fst (visit.heeded heed) := by
  intro world n status
  rfl

@[simp] theorem Status.addCycles_nil (s : Status N ε) : s.addCycles [] = s := by
  simp [addCycles]

/-- What a walk does next. It drops an entry, or calls a visitor; after the call it goes on with
what `next` makes of the world, or it halts. -/
inductive Move (γ σ N : Type) where
  | drop (next : γ) (cycles : List N)
  | call (phase : Phase) (n : N) (halt : γ) (next : σ → γ × List N)

/-- All walks call visitors, keep a status and stop in the same way. They differ in the plan by
which they choose the next move from what they have in mind and the world. -/
abbrev Plan (γ σ N : Type) := γ → σ → Option (Move γ σ N)

structure Course (γ σ N ε : Type) where
  control : γ
  world : σ
  events : Array (Event σ N ε)
  status : Status N ε
  stopped : Bool

namespace Course

def start (control : γ) (world : σ) : Course γ σ N ε := ⟨control, world, #[], {}, false⟩

def drop (next : γ) (cycles : List N) (c : Course γ σ N ε) : Course γ σ N ε :=
  { c with control := next, status := c.status.addCycles cycles }

variable (plan : Plan γ σ N) (visit : Phase → Visitor σ N ε) (heed : Answer ε → Answer ε)
  (flags : Flags)

def event (phase : Phase) (n : N) (c : Course γ σ N ε) : Event σ N ε :=
  let (answer, after) := visit phase c.world n c.status
  { phase, node := n, status := c.status, before := c.world, answer, after }

def call (phase : Phase) (n : N) (halt : γ) (next : σ → γ × List N) (c : Course γ σ N ε) :
    Course γ σ N ε :=
  let e := c.event visit phase n
  let goesOn := flags.goesOn (heed e.answer)
  { control := if goesOn then (next e.after).1 else halt
    world := e.after
    events := c.events.push e
    status := (c.status.note n (heed e.answer)).addCycles
      (if goesOn then (next e.after).2 else [])
    stopped := !goesOn }

def act (c : Course γ σ N ε) : Move γ σ N → Course γ σ N ε
  | .drop next cycles => c.drop next cycles
  | .call phase n halt next => c.call visit heed flags phase n halt next

def step (c : Course γ σ N ε) : Option (Course γ σ N ε) :=
  if c.stopped then none else (plan c.control c.world).map (c.act visit heed flags)

def finished (c : Course γ σ N ε) : Bool := c.stopped || (plan c.control c.world).isNone

def report (warnings : γ → Array (Warning N)) (c : Course γ σ N ε) :
    Report (σ × Array (Event σ N ε)) N ε :=
  ⟨(c.world, c.events), c.status, warnings c.control, c.finished plan⟩

section Step

variable {plan visit heed flags} {c d : Course γ σ N ε}

theorem step_eq_some (h : c.step plan visit heed flags = some d) :
    c.stopped = false ∧
      ((∃ next cycles, plan c.control c.world = some (.drop next cycles) ∧
        d = c.drop next cycles) ∨
      ∃ phase n halt next, plan c.control c.world = some (.call phase n halt next) ∧
        d = c.call visit heed flags phase n halt next) := by
  unfold step at h
  split at h
  · cases h
  · next hs =>
    refine ⟨by simpa using hs, ?_⟩
    obtain ⟨move, hmove, rfl⟩ := Option.map_eq_some_iff.mp h
    cases move with
    | drop next cycles => exact .inl ⟨next, cycles, hmove, rfl⟩
    | call phase n halt next => exact .inr ⟨phase, n, halt, next, hmove, rfl⟩

theorem step_eq_none_iff : c.step plan visit heed flags = none ↔ c.finished plan = true := by
  unfold step finished
  cases c.stopped <;> simp

variable {phase : Phase} {n : N} {halt : γ} {next : σ → γ × List N}

@[simp] theorem events_call :
    (c.call visit heed flags phase n halt next).events = c.events.push (c.event visit phase n) :=
  rfl

@[simp] theorem stopped_call :
    (c.call visit heed flags phase n halt next).stopped =
      !flags.goesOn (heed (c.event visit phase n).answer) := rfl

theorem forall_events_call {p : Event σ N ε → Prop} :
    (∀ e ∈ (c.call visit heed flags phase n halt next).events.toList, p e) ↔
      (∀ e ∈ c.events.toList, p e) ∧ p (c.event visit phase n) := by
  simp only [events_call, Array.toList_push, List.forall_mem_append, List.forall_mem_singleton]

theorem control_call (h : flags.goesOn (heed (c.event visit phase n).answer) = true) :
    (c.call visit heed flags phase n halt next).control =
      (next (c.event visit phase n).after).1 := by
  simp [call, h]

end Step

section Halts

variable {plan visit flags} {c : Course γ σ N ε}

/-- Whether a course has stopped only because of what some call answered. -/
def Halts (flags : Flags) (c : Course γ σ N ε) : Prop :=
  c.stopped = true → ∃ e ∈ c.events.toList, flags.goesOn e.answer = false

theorem halts_call {phase : Phase} {n : N} {halt : γ} {next : σ → γ × List N} :
    (c.call visit id flags phase n halt next).Halts flags := by
  intro hs
  exact ⟨c.event visit phase n, by simp, by simpa using hs⟩

theorem Halts.idle (h : c.Halts flags) (hfinished : c.finished plan = true)
    (hgoes : ∀ e ∈ c.events.toList, flags.goesOn e.answer = true) :
    c.stopped = false ∧ plan c.control c.world = none := by
  cases hs : c.stopped with
  | false => exact ⟨rfl, by simpa [finished, hs] using hfinished⟩
  | true =>
    obtain ⟨e, he, hhalt⟩ := h hs
    rw [hgoes e he] at hhalt
    cases hhalt

end Halts

def Answered (visit : Phase → Visitor σ N ε) (c : Course γ σ N ε) : Prop :=
  ∀ e ∈ c.events.toList, (e.answer, e.after) = visit e.phase e.before e.node e.status

variable {plan visit heed flags}

theorem Answered.step {c d : Course γ σ N ε} (hc : c.Answered visit)
    (hstep : c.step plan visit heed flags = some d) : d.Answered visit := by
  obtain ⟨-, ⟨next, cycles, -, rfl⟩ | ⟨phase, n, halt, next, -, rfl⟩⟩ := step_eq_some hstep
  · exact hc
  · exact forall_events_call.mpr ⟨hc, rfl⟩

theorem answered_iterate {control : γ} {world : σ} {limit : Nat} :
    (iterate (step plan visit heed flags) limit (start control world)).Answered visit := by
  have hstart : (start control world : Course γ σ N ε).Answered visit := by
    intro e he
    cases he
  exact iterate_invariant (fun _ _ => Answered.step) hstart limit

end Course

end Multidigraph.Walk
