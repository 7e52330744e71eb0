import Multidigraph.Proofs.Overwriting
import Multidigraph.Proofs.Rejection

namespace Multidigraph

def Operation.isPut : Operation → Bool
  | putNode _ _ | putEdge _ _ _ _ _ => true
  | _ => false

/-- Whether an edge was refused because an endpoint was not there. -/
def Outcome.lacksEndpoint : Outcome → Bool
  | failed (.invalidArgument (.sourceAbsent _))
  | failed (.invalidArgument (.destinationAbsent _)) => true
  | _ => false

namespace Graph

variable {g g' g'' : Graph} {op : Operation}

section Extends

structure Extends (g g' : Graph) : Prop where
  nodeIds : ∀ s h, g.nodeHandle? s = some h → g'.nodeHandle? s = some h
  edgeIds : ∀ s k, g.edgeHandle? s = some k → g'.edgeHandle? s = some k
  nodes : ∀ h, g.hasNode h = true → g'.hasNode h = true
  relations : ∀ k e, g.edge? k = some e →
    ∃ f, g'.edge? k = some f ∧ f.relation = e.relation

theorem Extends.refl (g : Graph) : g.Extends g :=
  ⟨fun _ _ h => h, fun _ _ h => h, fun _ h => h, fun _ e he => ⟨e, he, rfl⟩⟩

theorem Extends.trans (h : g.Extends g') (h' : g'.Extends g'') : g.Extends g'' where
  nodeIds s j hj := h'.nodeIds s j (h.nodeIds s j hj)
  edgeIds s k hk := h'.edgeIds s k (h.edgeIds s k hk)
  nodes j hj := h'.nodes j (h.nodes j hj)
  relations k e he := by
    obtain ⟨f, hf, hfe⟩ := h.relations k e he
    obtain ⟨f', hf', hff'⟩ := h'.relations k f hf
    exact ⟨f', hf', hff'.trans hfe⟩

theorem extends_overwrite (g : Graph) (ws : LabelWrites) : g.Extends (g.overwrite ws) := by
  obtain ⟨-, -, -, hnodeIds, hedgeIds⟩ := g.frame_overwrite ws
  refine ⟨fun s h hs => ?_, fun s k hs => ?_, fun h hh => ?_, fun k e he => ?_⟩
  · rwa [nodeHandle?, hnodeIds]
  · rwa [edgeHandle?, hedgeIds]
  · simpa [hasNode, node?_overwrite] using hh
  · simp [edge?_overwrite, he]

theorem extends_insertNode {id : String} (hid : g.nodeHandle? id = none) (label : String) :
    g.Extends (g.insertNode id label).2 where
  nodeIds s h hs := by
    have hne : s ≠ id := by
      rintro rfl
      rw [hid] at hs
      cases hs
    simpa [nodeHandle?_insertNode, hne] using hs
  edgeIds s k hs := hs
  nodes h hh := hasNode_insertNode g id label hh
  relations k e he := ⟨e, he, rfl⟩

theorem extends_insertEdge {id : String} (hid : g.edgeHandle? id = none) (r : Relation)
    (label : String) (s d : NodeHandle) : g.Extends (g.insertEdge r id label s d).2 where
  nodeIds t h ht := ht
  edgeIds t k ht := by
    have hne : t ≠ id := by
      rintro rfl
      rw [hid] at ht
      cases ht
    simpa [edgeHandle?_insertEdge, hne] using ht
  nodes h hh := by simpa using hh
  relations k e he := by
    have hne : k ≠ g.nextEdge := by
      rintro rfl
      rw [edge?_nextEdge] at he
      cases he
    exact ⟨e, by simp [edge?_insertEdge, hne, he], rfl⟩

end Extends

section Finds

/-- Whether what an operation puts is there already, and the endpoints that it names are. -/
def Finds (g : Graph) : Operation → Prop
  | .putNode id _ => ∃ h, g.nodeHandle? id = some h
  | .putEdge _ id _ s d =>
    g.hasNode s = true ∧ g.hasNode d = true ∧ ∃ k, g.edgeHandle? id = some k
  | _ => False

def writes (g : Graph) : Operation → LabelWrites
  | .putNode id label => ((g.nodeHandle? id).map fun h => (.node h, label)).toList
  | .putEdge r id label _ _ =>
    (((g.edgeHandle? id).filter fun k => (g.edge? k).any (·.relation == r)).map
      fun k => (.edge k, label)).toList
  | _ => []

theorem putEdge_of_finds {r : Relation} {id label : String} {s d : NodeHandle} {k : EdgeHandle}
    {e : Edge} (hs : g.hasNode s = true) (hd : g.hasNode d = true)
    (hk : g.edgeHandle? id = some k) (he : g.edge? k = some e) :
    g.putEdge r id label s d =
      if e.relation == r then (.ok k, g.relabel (.edge k) label)
      else (.error (.invalidArgument (.relationClash id e.relation.name r.name)), g) := by
  simp [putEdge, checkEndpoints_of_hasNode hs hd, hk, he, relabel]

theorem Finds.apply_snd (hop : g.Finds op) (hg : g.WellFormed) :
    (op.apply g).2 = g.overwrite (g.writes op) := by
  cases op with
  | putNode id label =>
    obtain ⟨h, hh⟩ := hop
    simp [Operation.apply, Operation.answer, putNode, writes, hh, relabel]
  | putEdge r id label s d =>
    obtain ⟨hs, hd, k, hk⟩ := hop
    obtain ⟨e, he, -⟩ := hg.edge?_of_edgeHandle? hk
    simp only [Operation.apply, Operation.answer, putEdge_of_finds hs hd hk he, writes, hk,
      Option.filter_some, he, Option.any_some]
    split <;> rfl
  | _ => cases hop

theorem Finds.mono (hop : g.Finds op) (hg : g.WellFormed) (hext : g.Extends g') :
    g'.Finds op ∧ (op.apply g').1 = (op.apply g).1 ∧ g'.writes op = g.writes op := by
  cases op with
  | putNode id label =>
    obtain ⟨h, hh⟩ := hop
    have hh' := hext.nodeIds id h hh
    exact ⟨⟨h, hh'⟩, by simp [Operation.apply, Operation.answer, putNode, hh, hh'],
      by simp [writes, hh, hh']⟩
  | putEdge r id label s d =>
    obtain ⟨hs, hd, k, hk⟩ := hop
    obtain ⟨e, he, -⟩ := hg.edge?_of_edgeHandle? hk
    have hk' := hext.edgeIds id k hk
    have hs' := hext.nodes s hs
    have hd' := hext.nodes d hd
    obtain ⟨f, hf, hrelation⟩ := hext.relations k e he
    refine ⟨⟨hs', hd', k, hk'⟩, ?_,
      by simp [writes, hk, hk', he, hf, hrelation, Option.filter_some]⟩
    simp only [Operation.apply, Operation.answer, putEdge_of_finds hs hd hk he,
      putEdge_of_finds hs' hd' hk' hf, hrelation]
    split <;> rfl
  | _ => cases hop

theorem Finds.writes_cases (hop : g.Finds op) (hg : g.WellFormed) :
    g.writes op = [] ∨ ∃ x label, g.writes op = [(x, label)] ∧ (g.label? x).isSome = true := by
  cases op with
  | putNode id label =>
    obtain ⟨h, hh⟩ := hop
    obtain ⟨n, hn, -⟩ := Option.map_eq_some_iff.mp ((hg.nodeIds id h).mp hh)
    exact .inr ⟨.node h, label, by simp [writes, hh], by simp [label?, hn]⟩
  | putEdge r id label s d =>
    obtain ⟨-, -, k, hk⟩ := hop
    obtain ⟨e, he, -⟩ := hg.edge?_of_edgeHandle? hk
    by_cases hrelation : e.relation == r
    · exact .inr ⟨.edge k, label, by simp [writes, hk, he, hrelation, Option.filter_some],
        by simp [label?, he]⟩
    · exact .inl (by simp [writes, hk, he, hrelation, Option.filter_some])
  | _ => cases hop

end Finds

section Settles

/-- Whether `g'` is what a put leaves of `g`, as far as a second run can tell. -/
structure Settles (g : Graph) (op : Operation) (g' : Graph) : Prop where
  grows : g.Extends g'
  finds : g'.Finds op
  answer : (op.apply g').1 = (op.apply g).1
  shows : ∀ ws, g.Shows ws → g'.Shows (ws ++ g'.writes op)

theorem Finds.settles (hop : g.Finds op) (hg : g.WellFormed) : g.Settles op (op.apply g).2 := by
  rw [hop.apply_snd hg]
  have hext := g.extends_overwrite (g.writes op)
  obtain ⟨hfinds, hanswer, hwrites⟩ := hop.mono hg hext
  refine ⟨hext, hfinds, hanswer, fun ws hws => ?_⟩
  rw [hwrites]
  obtain hnone | ⟨x, label, hone, hlive⟩ := hop.writes_cases hg
  · simpa [hnone] using hws
  · rw [hone, overwrite_singleton]
    obtain ⟨old, hold⟩ := Option.isSome_iff_exists.mp hlive
    refine hws.append_singleton (by simp [label?_relabel, hold]) fun y l hy hl => ?_
    simp [label?_relabel, hl, hy]

theorem settles_putNode {id : String} (hid : g.nodeHandle? id = none) (label : String) :
    g.Settles (.putNode id label) (Operation.apply (.putNode id label) g).2 := by
  have happly : Operation.apply (.putNode id label) g =
      (.nodeHandle g.nextNode, (g.insertNode id label).2) := by
    simp [Operation.apply, Operation.answer, putNode, hid, insertNode, nextNode]
  have hthere : (g.insertNode id label).2.nodeHandle? id = some g.nextNode := by
    simp [nodeHandle?_insertNode]
  rw [happly]
  refine ⟨extends_insertNode hid label, ⟨_, hthere⟩, ?_, fun ws hws => ?_⟩
  · rw [happly]
    simp [Operation.apply, Operation.answer, putNode, hthere]
  · simp only [writes, hthere, Option.map_some, Option.toList_some]
    refine hws.append_singleton (by simp [label?_insertNode]) fun y l hy hl => ?_
    simp [label?_insertNode, hy, hl]

theorem settles_putEdge {id : String} {s d : NodeHandle} (hs : g.hasNode s = true)
    (hd : g.hasNode d = true) (hid : g.edgeHandle? id = none) (r : Relation) (label : String) :
    g.Settles (.putEdge r id label s d) (Operation.apply (.putEdge r id label s d) g).2 := by
  have happly : Operation.apply (.putEdge r id label s d) g =
      (.edgeHandle g.nextEdge, (g.insertEdge r id label s d).2) := by
    simp [Operation.apply, Operation.answer, putEdge, checkEndpoints_of_hasNode hs hd, hid,
      Outcome.ofExcept, insertEdge, nextEdge]
  have hthere : (g.insertEdge r id label s d).2.edgeHandle? id = some g.nextEdge := by
    simp [edgeHandle?_insertEdge]
  have hedge : (g.insertEdge r id label s d).2.edge? g.nextEdge =
      some ⟨id, label, .one, r, s, d, g.id⟩ := by
    simp [edge?_insertEdge]
  have hs' : (g.insertEdge r id label s d).2.hasNode s = true := by simpa using hs
  have hd' : (g.insertEdge r id label s d).2.hasNode d = true := by simpa using hd
  rw [happly]
  refine ⟨extends_insertEdge hid r label s d, ⟨hs', hd', _, hthere⟩, ?_, fun ws hws => ?_⟩
  · rw [happly, Operation.apply, putEdge_of_finds hs' hd' hthere hedge]
    simp [Operation.answer, Outcome.ofExcept]
  · simp only [writes, hthere, hedge, Option.filter_some, Option.any_some, Relation.beq_iff_name,
      if_true, Option.map_some, Option.toList_some]
    refine hws.append_singleton (by simp [label?_insertEdge]) fun y l hy hl => ?_
    simp [label?_insertEdge, hy, hl]

theorem WellFormed.put_settles (hg : g.WellFormed) (hput : op.isPut = true)
    (hends : (op.apply g).1.lacksEndpoint = false) : g.Settles op (op.apply g).2 := by
  cases op with
  | putNode id label =>
    cases hid : g.nodeHandle? id with
    | none => exact settles_putNode hid label
    | some h => exact Finds.settles ⟨h, hid⟩ hg
  | putEdge r id label s d =>
    cases hcheck : g.checkEndpoints s d with
    | error e =>
      obtain ⟨refusal, hrefusal, rfl⟩ := checkEndpoints_eq_error_iff.mp hcheck
      simp only [Operation.apply, Graph.putEdge, hcheck, Operation.answer,
        Outcome.ofExcept] at hends
      cases hrefusal <;> cases hends
    | ok u =>
      obtain ⟨hs, hd⟩ := checkEndpoints_eq_ok hcheck
      cases hid : g.edgeHandle? id with
      | none => exact settles_putEdge hs hd hid r label
      | some k => exact Finds.settles ⟨hs, hd, k, hid⟩ hg
  | _ => cases hput

end Settles

end Graph

namespace Operation

variable {g : Graph} {puts : List Operation}

theorem run_settles (hg : g.WellFormed) (hputs : ∀ op ∈ puts, op.isPut = true)
    (hends : ∀ o ∈ (run puts g).1, o.lacksEndpoint = false) :
    let g' := (run puts g).2
    (∀ op ∈ puts, g'.Finds op) ∧ (run puts g).1 = puts.map (fun op => (op.apply g').1) ∧
      g'.Shows (puts.flatMap g'.writes) := by
  induction puts using List.reverseRecOn with
  | nil => exact ⟨nofun, rfl, nofun⟩
  | append_singleton puts op ih =>
    rw [run_append_singleton] at hends ⊢
    obtain ⟨hfinds, hanswers, hshows⟩ := ih (fun op hop => hputs op (List.mem_append_left _ hop))
      fun o ho => hends o (List.mem_append_left _ ho)
    have hwf := run_wellFormed hg puts
    have hsettles := hwf.put_settles (hputs op (by simp)) (hends _ (by simp))
    -- the last put takes nothing away from what the earlier ones found
    have hmono : ∀ p ∈ puts, _ := fun p hp => (hfinds p hp).mono hwf hsettles.grows
    refine ⟨fun p hp => ?_, ?_, ?_⟩
    · obtain hp | hp := List.mem_append.mp hp
      · exact (hmono p hp).1
      · rw [List.mem_singleton.mp hp]
        exact hsettles.finds
    · dsimp only
      rw [List.map_append, List.map_singleton, hsettles.answer, hanswers,
        List.map_congr_left fun p hp => (hmono p hp).2.1]
    · dsimp only
      rw [List.flatMap_append, List.flatMap_singleton,
        List.flatMap_congr fun p hp => (hmono p hp).2.2]
      exact hsettles.shows _ hshows

theorem run_of_finds (hg : g.WellFormed) (hfinds : ∀ op ∈ puts, g.Finds op) :
    run puts g = (puts.map (fun op => (op.apply g).1), g.overwrite (puts.flatMap g.writes)) := by
  induction puts using List.reverseRecOn with
  | nil => rfl
  | append_singleton puts op ih =>
    have ih := ih fun op hop => hfinds op (List.mem_append_left _ hop)
    have hwf := run_wellFormed hg puts
    have hop := hfinds op (by simp)
    rw [run_append_singleton]
    rw [ih] at hwf ⊢
    obtain ⟨hfinds', hanswer, hwrites⟩ := hop.mono hg (g.extends_overwrite (puts.flatMap g.writes))
    rw [hanswer, hfinds'.apply_snd hwf, hwrites, ← Graph.overwrite_append]
    simp

end Operation

namespace Graph

/-- Puts that are run again right after they were run are answered as before, one by one, and leave
the graph as it is, provided that no edge lacked an endpoint in the first run. Ids may be put
several times, and may have been there before; and edges may clash. -/
theorem replay_ofHistory (id : GraphId) (history puts : List Operation) :
    let first := Operation.run puts (ofHistory id history)
    (∀ op ∈ puts, op.isPut = true) → (∀ o ∈ first.1, o.lacksEndpoint = false) →
      Operation.run puts first.2 = first := by
  intro first hputs hends
  have hg := ofHistory_wellFormed id history
  obtain ⟨hfinds, hanswers, hshows⟩ := Operation.run_settles hg hputs hends
  rw [Operation.run_of_finds (Operation.run_wellFormed hg puts) hfinds, hshows.overwrite_eq,
    ← hanswers]

/-- The edge `ab` is there before, with another relation than that of its first put; its second put
names other endpoints. The edge `cc` clashes with an earlier put of the same list, and is then put
in another spelling. The node `c` is relabelled twice. -/
theorem replay_ofHistory_clashes :
    let history : List Operation := [.putNode "a" "x", .putNode "gone" "", .putNode "b" "",
      .putEdge (.named "r") "ab" "old" ⟨0⟩ ⟨2⟩, .eraseNode ⟨1⟩]
    let puts : List Operation := [.putNode "c" "1", .putNode "a" "y", .putNode "c" "2",
      .putEdge .default "ab" "lost" ⟨0⟩ ⟨2⟩, .putEdge (.named "r") "ab" "new" ⟨3⟩ ⟨3⟩,
      .putEdge .default "cc" "p" ⟨3⟩ ⟨3⟩, .putEdge (.named "s") "cc" "lost" ⟨3⟩ ⟨3⟩,
      .putEdge (.named "DEFAULT") "cc" "q" ⟨0⟩ ⟨2⟩, .putNode "c" "3"]
    let first := Operation.run puts (ofHistory ⟨⟨0⟩⟩ history)
    (∀ op ∈ puts, op.isPut = true) ∧ (∀ o ∈ first.1, o.lacksEndpoint = false) ∧
      Operation.run puts first.2 = first ∧
      first.1.map Outcome.handle? = [some (.node ⟨3⟩), some (.node ⟨0⟩), some (.node ⟨3⟩), none,
        some (.edge ⟨0⟩), some (.edge ⟨1⟩), none, some (.edge ⟨1⟩), some (.node ⟨3⟩)] ∧
      first.2.label? (.node ⟨3⟩) = some "3" ∧ first.2.label? (.edge ⟨0⟩) = some "new" ∧
      first.2.label? (.edge ⟨1⟩) = some "q" ∧ first.2.source? ⟨0⟩ = some ⟨0⟩ := by
  intro history puts first
  have hputs : ∀ op ∈ puts, op.isPut = true := by decide
  have hends : ∀ o ∈ first.1, o.lacksEndpoint = false := by decide +kernel
  exact ⟨hputs, hends, replay_ofHistory ⟨⟨0⟩⟩ history puts hputs hends, by decide +kernel,
    by decide +kernel, by decide +kernel, by decide +kernel, by decide +kernel⟩

end Graph

end Multidigraph
