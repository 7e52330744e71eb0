import Multidigraph.Proofs.Agenda
import Multidigraph.Proofs.History
import Multidigraph.Proofs.Retagging

namespace Multidigraph

open Walk (Answer Flags Phase Report Status Visitor Warning)

/-- What a client comes to see: the reply to a request, the calls of its visitors with their
answers, and the ends of walks. -/
inductive Sight (ε : Type) where
  | replied (request : Request) (reply : Reply)
  | called (phase : Phase) (n : NodeHandle) (status : Status NodeHandle ε)
  | answered (answer : Answer ε)
  | walked (status : Status NodeHandle ε) (warnings : Array (Warning NodeHandle)) (finished : Bool)

namespace Sight

variable {ε : Type}

def retag (id : GraphId) : Sight ε → Sight ε
  | replied request reply => replied request (reply.retag id)
  | s => s

def copies : Sight ε → Bool
  | replied request _ => request.copies
  | _ => false

@[simp] theorem retag_retag (id id' : GraphId) (s : Sight ε) :
    (s.retag id).retag id' = s.retag id' := by
  cases s with
  | replied request reply => exact congrArg (replied request) (reply.retag_retag id id')
  | _ => rfl

end Sight

structure Entry (ε : Type) where
  sight : Sight ε
  graph : Graph

namespace Entry

variable {ε : Type}

def copies (e : Entry ε) : Bool := e.sight.copies

def clone (id : GraphId) (e : Entry ε) : Entry ε := ⟨e.sight.retag id, e.graph.clone id⟩

end Entry

/-- A graph in use, and what has been seen of it, the latest first. -/
structure Session (ε : Type) where
  graph : Graph
  log : List (Entry ε)

namespace Session

variable {ε : Type}

def note (s : Sight ε) (w : Session ε) : Session ε := ⟨w.graph, ⟨s, w.graph⟩ :: w.log⟩

def ask (r : Request) (w : Session ε) : Session ε :=
  let (reply, g) := r.answer w.graph
  note (.replied r reply) ⟨g, w.log⟩

/-- What a client is shown, with all tags alike. -/
def seen (w : Session ε) : List (Sight ε) := w.log.map fun e => e.sight.retag ⟨⟨0⟩⟩

def visitor (phase : Phase)
    (act : NodeHandle → Status NodeHandle ε → Session ε → Answer ε × Session ε) :
    Visitor (Session ε) NodeHandle ε :=
  fun w n status =>
    let (answer, w) := act n status (w.note (.called phase n status))
    (answer, w.note (.answered answer))

def ofReport (r : Report (Session ε) NodeHandle ε) : Session ε :=
  r.world.note (.walked r.status r.warnings r.finished)

def navigation : Walk.Navigation (Session ε) NodeHandle := Graph.navigation.comap graph

end Session

/-- A program that does not look at tags. What it does next may depend on all that it has seen; as a
visitor it ends with its answer. -/
inductive Client (ε : Type) where
  | done (answer : Answer ε)
  | consult (next : List (Sight ε) → Client ε)
  | request (r : Request) (anonymous : r.Anonymous) (next : Client ε)
  | depthFirst (flags : Flags) (limit : Nat) (start : NodeHandle)
      (pre post : NodeHandle → Status NodeHandle ε → Client ε) (next : Client ε)
  | breadthFirst (flags : Flags) (limit : Nat) (start : NodeHandle)
      (visit : NodeHandle → Status NodeHandle ε → Client ε) (next : Client ε)

def Client.run {ε : Type} : Client ε → Session ε → Answer ε × Session ε
  | done answer, w => (answer, w)
  | consult next, w => (next w.seen).run w
  | request r _ next, w => next.run (w.ask r)
  | depthFirst flags limit start pre post next, w =>
    next.run (.ofReport (Walk.depthFirst Session.navigation
      (Session.visitor .first fun n status => (pre n status).run)
      (Session.visitor .last fun n status => (post n status).run) flags limit w start))
  | breadthFirst flags limit start visit next, w =>
    next.run (.ofReport (Walk.breadthFirst Session.navigation
      (Session.visitor .first fun n status => (visit n status).run) flags limit w start))

namespace Session

variable {ε : Type} {id : GraphId}

/-- The log of the same requests and walks in a copy of the graph. It has the tags of the copy up to
the time when the graph is copied again, and is the same from then on. -/
def mirrorLog (id : GraphId) : List (Entry ε) → List (Entry ε)
  | [] => []
  | e :: log => (if (e :: log).any Entry.copies then e else e.clone id) :: mirrorLog id log

def mirror (id : GraphId) (w : Session ε) : Session ε :=
  ⟨if w.log.any Entry.copies then w.graph else w.graph.clone id, mirrorLog id w.log⟩

theorem seen_mirror (w : Session ε) : (w.mirror id).seen = w.seen := by
  obtain ⟨g, log⟩ := w
  simp only [seen, mirror]
  induction log with
  | nil => rfl
  | cons e log ih =>
    rw [mirrorLog, List.map_cons, List.map_cons, ih]
    split
    · rfl
    · rw [Entry.clone, Sight.retag_retag]

theorem mirror_note {s : Sight ε} (htags : s.retag id = s) (hc : s.copies = false)
    (w : Session ε) : (w.note s).mirror id = (w.mirror id).note s := by
  obtain ⟨g, log⟩ := w
  have hany : (⟨s, g⟩ :: log : List (Entry ε)).any Entry.copies = log.any Entry.copies := by
    simp [Entry.copies, hc]
  simp only [mirror, note, mirrorLog, hany]
  cases log.any Entry.copies with
  | true => rfl
  | false => simp [Entry.clone, htags]

theorem mirror_ask {r : Request} (hr : r.Anonymous) (w : Session ε) :
    (w.ask r).mirror id = (w.mirror id).ask r := by
  obtain ⟨g, log⟩ := w
  have hany : ∀ reply g', (⟨.replied r reply, g'⟩ :: log : List (Entry ε)).any Entry.copies =
      (r.copies || log.any Entry.copies) := fun _ _ => rfl
  -- after a copy was made both have the same graph; before, it matters whether one is made now
  cases hlog : log.any Entry.copies with
  | true => simp [mirror, ask, note, mirrorLog, hany, hlog]
  | false =>
    cases hc : r.copies with
    | true =>
      simp [mirror, ask, note, mirrorLog, hany, hlog, hc, r.answer_clone_of_copies id g hc]
    | false =>
      simp [mirror, ask, note, mirrorLog, hany, hlog, hc, r.answer_clone id g hr hc, Entry.clone,
        Sight.retag]

theorem navigation_comap_mirror : navigation.comap (mirror (ε := ε) id) = navigation := by
  have hclone := Graph.navigation_comap_clone id
  have hview : ∀ {β : Type} {f : Graph → β}, (fun g => f (g.clone id)) = f →
      (f ∘ graph) ∘ mirror (ε := ε) id = f ∘ graph := by
    intro β f hf
    funext w
    simp only [Function.comp_apply, mirror]
    split
    · rfl
    · exact congrFun hf w.graph
  simp only [navigation, Walk.Navigation.comap, Walk.Navigation.mk.injEq]
  exact ⟨hview (congrArg Walk.Navigation.contains hclone),
    hview (congrArg Walk.Navigation.outgoing hclone),
    hview (congrArg Walk.Navigation.incoming hclone)⟩

theorem visitor_projects (phase : Phase)
    {act : NodeHandle → Status NodeHandle ε → Session ε → Answer ε × Session ε}
    (hact : ∀ n status w, act n status (w.mirror id) =
      (act n status w).map (fun answer => answer) (mirror id)) :
    (visitor phase act).Projects (mirror id) (visitor phase act) := by
  intro w n status
  have hcalled : (w.note (.called phase n status)).mirror id =
      (w.mirror id).note (.called phase n status) := mirror_note rfl rfl w
  have hanswered : ∀ answer (w : Session ε),
      (w.note (.answered answer)).mirror id = (w.mirror id).note (.answered answer) :=
    fun _ => mirror_note rfl rfl
  simp only [visitor, ← hcalled, hact, Prod.map, hanswered]

theorem ofReport_mapWorld (r : Report (Session ε) NodeHandle ε) :
    ofReport (r.mapWorld (mirror id)) = (ofReport r).mirror id :=
  (mirror_note rfl rfl r.world).symm

end Session

theorem Client.run_mirror {ε : Type} {id : GraphId} (p : Client ε) (w : Session ε) :
    p.run (w.mirror id) = (p.run w).map (fun answer => answer) (Session.mirror id) := by
  -- visitors are clients, for which the induction holds in whatever session they are called
  induction p generalizing w with
  | done answer => rfl
  | consult next ih => rw [run, run, w.seen_mirror, ih]
  | request r hr next ih => rw [run, run, ← Session.mirror_ask hr, ih]
  | depthFirst flags limit start pre post next hpre hpost ih =>
    rw [run, run, Walk.depthFirst_mapWorld (Session.visitor_projects .first hpre)
      (Session.visitor_projects .last hpost), Session.navigation_comap_mirror,
      Session.ofReport_mapWorld, ih]
  | breadthFirst flags limit start visit next hvisit ih =>
    rw [run, run, Walk.breadthFirst_mapWorld (Session.visitor_projects .first hvisit),
      Session.navigation_comap_mirror, Session.ofReport_mapWorld, ih]

namespace Graph

/-- A copy has its own identity, and the nodes and edges of the graph with its own tags. It behaves
as the graph would: whatever is done that does not depend on tags has the same answers, lists,
documents, errors, calls and ends of walks, and at all times the one graph is a copy of the other.
-/
theorem clone_ofHistory (id id' : GraphId) (history : List Operation) :
    let g := ofHistory id history
    let c := g.clone id'
    c.WellFormed ∧ c.id = id' ∧
      (∀ h, c.node? h = (g.node? h).map (Node.retag id')) ∧
      (∀ k, c.edge? k = (g.edge? k).map (Edge.retag id')) ∧
      ∀ (ε : Type) (p : Client ε),
        p.run ⟨c, []⟩ = ((p.run ⟨g, []⟩).1, (p.run ⟨g, []⟩).2.mirror id') := by
  intro g c
  have hg : g.WellFormed := ofHistory_wellFormed id history
  exact ⟨hg.clone id', g.id_clone id', g.node?_clone_retag id', g.edge?_clone_retag id',
    fun ε p => p.run_mirror ⟨g, []⟩⟩

/-- What a visitor makes in a copy bears the tag of the copy. -/
example :
    let c := (ofHistory ⟨⟨0⟩⟩ [.putNode "a" ""]).clone ⟨⟨1⟩⟩
    let loop : Request := .change (.putEdge .default "e" "" ⟨0⟩ ⟨0⟩)
    let p : Client Empty := .depthFirst {} 9 ⟨0⟩ (fun _ _ => .request loop trivial (.done .proceed))
      (fun _ _ => .done .proceed) (.done .proceed)
    ((p.run ⟨c, []⟩).2.graph.edge? ⟨0⟩).map Edge.graph = some ⟨⟨1⟩⟩ := by
  decide +kernel

end Graph

end Multidigraph
