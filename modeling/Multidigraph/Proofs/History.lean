import Multidigraph.Proofs.WellFormed

namespace Multidigraph

namespace Graph

variable {g : Graph}

section Insert

theorem WellFormed.insertNode (hg : g.WellFormed) {id : String} (hid : g.nodeHandle? id = none)
    (label : String) : (g.insertNode id label).2.WellFormed := by
  have hnew := node?_nextNode g
  constructor
  case nodeIds =>
    intro s h
    rw [nodeHandle?_insertNode, nodeId?_insertNode]
    exact hg.nodeIds.insert hid (by simp [nodeId?, hnew]) s h
  case edgeIds => exact hg.edgeIds
  case nodes =>
    intro h n hn
    rw [node?_insertNode] at hn
    split at hn
    · next hh =>
      obtain rfl := Option.some.inj hn
      exact ⟨.nil fun e => hh ▸ hg.source?_ne hnew e, .nil fun e => hh ▸ hg.destination?_ne hnew e,
        .nil, rfl⟩
    · obtain ⟨hout, hin, hcat, hown⟩ := hg.nodes h n hn
      exact ⟨hout, hin, hcat, hown⟩
  case edges =>
    intro h e he
    obtain ⟨hs, hd, hown⟩ := hg.edges h e he
    exact ⟨hasNode_insertNode g id label hs, hasNode_insertNode g id label hd, hown⟩

theorem WellFormed.insertEdge (hg : g.WellFormed) {id : String} (hid : g.edgeHandle? id = none)
    {s d : NodeHandle} (hs : g.hasNode s = true) (hd : g.hasNode d = true)
    (r : Relation) (label : String) : (g.insertEdge r id label s d).2.WellFormed := by
  have hnew := edge?_nextEdge g
  constructor
  case nodeIds => intro t h; simpa using hg.nodeIds t h
  case edgeIds =>
    intro t h
    rw [edgeHandle?_insertEdge, edgeId?_insertEdge]
    exact hg.edgeIds.insert hid (by simp [edgeId?, hnew]) t h
  case nodes =>
    intro h n hn
    rw [node?_insertEdge] at hn
    obtain ⟨m, hm, rfl⟩ := Option.map_eq_some_iff.mp hn
    obtain ⟨hout, hin, hcat, hown⟩ := hg.nodes h m hm
    refine ⟨?_, ?_, hcat, hown⟩
    · simp only [source?_insertEdge]
      refine hout.addEdge fun e he => ?_
      obtain ⟨edge, hedge⟩ := Option.isSome_iff_exists.mp (Option.isSome_map ▸ he)
      exact slot_lt_of_edge? hedge
    · simp only [destination?_insertEdge]
      refine hin.addEdge fun e he => ?_
      obtain ⟨edge, hedge⟩ := Option.isSome_iff_exists.mp (Option.isSome_map ▸ he)
      exact slot_lt_of_edge? hedge
  case edges =>
    intro h e he
    rw [edge?_insertEdge] at he
    split at he
    · obtain rfl := Option.some.inj he
      exact ⟨by simpa using hs, by simpa using hd, rfl⟩
    · obtain ⟨hsrc, hdst, hown⟩ := hg.edges h e he
      exact ⟨by simpa using hsrc, by simpa using hdst, hown⟩

theorem WellFormed.putNode (hg : g.WellFormed) (id label : String) :
    (g.putNode id label).2.WellFormed := by
  unfold Graph.putNode
  split
  · exact hg.modifyNode _ fun n => n.edit_redraws _
  · next hid => exact hg.insertNode hid label

theorem checkEndpoints_eq_ok {s d : NodeHandle} (h : g.checkEndpoints s d = .ok ()) :
    g.hasNode s = true ∧ g.hasNode d = true := by
  unfold checkEndpoints at h
  split at h
  · cases h
  · next hs =>
    split at h
    · cases h
    · next hd => exact ⟨by simpa using hs, by simpa using hd⟩

theorem WellFormed.putEdge (hg : g.WellFormed) (r : Relation) (id label : String)
    (s d : NodeHandle) : (g.putEdge r id label s d).2.WellFormed := by
  unfold Graph.putEdge
  split
  · exact hg
  · next hends =>
    obtain ⟨hs, hd⟩ := checkEndpoints_eq_ok hends
    split
    · next hid => exact hg.insertEdge hid hs hd r label
    · split
      · exact hg
      · split
        · exact hg.modifyEdge _ fun e => e.edit_redraws _
        · exact hg

theorem getElem?_firstUnused {H : Type} {registry : Registry H} {draws : List Uuid} {id : String}
    (h : firstUnused registry draws = some id) : registry[id]? = none := by
  have hfree := List.find?_some h
  simpa [← Std.ExtTreeMap.isSome_getElem?_eq_contains] using hfree

theorem WellFormed.freshNode (hg : g.WellFormed) (label : String) (draws : List Uuid) :
    (g.freshNode label draws).2.WellFormed := by
  unfold Graph.freshNode
  split
  · exact hg
  · next hid => exact hg.insertNode (getElem?_firstUnused hid) label

theorem WellFormed.freshEdge (hg : g.WellFormed) (r : Relation) (label : String)
    (s d : NodeHandle) (draws : List Uuid) : (g.freshEdge r label s d draws).2.WellFormed := by
  unfold Graph.freshEdge
  split
  · exact hg
  · next hends =>
    obtain ⟨hs, hd⟩ := checkEndpoints_eq_ok hends
    split
    · exact hg
    · next hid => exact hg.insertEdge (getElem?_firstUnused hid) hs hd r label

end Insert

section Erase

theorem WellFormed.withoutEdge (hg : g.WellFormed) {h : EdgeHandle} {e : Edge}
    (he : g.edge? h = some e) : (g.withoutEdge h e).WellFormed := by
  constructor
  case nodeIds => intro s j; simpa using hg.nodeIds s j
  case edgeIds =>
    intro s j
    rw [edgeHandle?_withoutEdge, edgeId?_withoutEdge]
    exact hg.edgeIds.erase (by simp [edgeId?, he]) s j
  case nodes =>
    intro j n hn
    rw [node?_withoutEdge] at hn
    obtain ⟨m, hm, rfl⟩ := Option.map_eq_some_iff.mp hn
    obtain ⟨hout, hin, hcat, hown⟩ := hg.nodes j m hm
    refine ⟨?_, ?_, hcat, hown⟩
    · simp only [source?_withoutEdge]
      exact hout.dropEdge (by simp [source?, he])
    · simp only [destination?_withoutEdge]
      exact hin.dropEdge (by simp [destination?, he])
  case edges =>
    intro j f hf
    rw [edge?_withoutEdge] at hf
    split at hf
    · cases hf
    · obtain ⟨hs, hd, hown⟩ := hg.edges j f hf
      exact ⟨by simpa using hs, by simpa using hd, hown⟩

theorem WellFormed.withoutNode (hg : g.WellFormed) {h : NodeHandle} {n : Node}
    (hn : g.node? h = some n) (hs : ∀ e, g.source? e ≠ some h)
    (hd : ∀ e, g.destination? e ≠ some h) : (g.withoutNode h n).WellFormed := by
  have hlive : ∀ j, j ≠ h → g.hasNode j = true → (g.withoutNode h n).hasNode j = true :=
    fun j hj hjg => by simpa [hasNode, node?_withoutNode, hj] using hjg
  constructor
  case nodeIds =>
    intro s j
    rw [nodeHandle?_withoutNode, nodeId?_withoutNode]
    exact hg.nodeIds.erase (by simp [nodeId?, hn]) s j
  case edgeIds => exact hg.edgeIds
  case nodes =>
    intro j m hm
    rw [node?_withoutNode] at hm
    split at hm
    · cases hm
    · obtain ⟨hout, hin, hcat, hown⟩ := hg.nodes j m hm
      exact ⟨hout, hin, hcat, hown⟩
  case edges =>
    intro j e he
    have he' : g.edge? j = some e := he
    obtain ⟨hsrc, hdst, hown⟩ := hg.edges j e he'
    refine ⟨hlive _ (fun heq => hs j ?_) hsrc, hlive _ (fun heq => hd j ?_) hdst, hown⟩
    · simp [source?, he', heq]
    · simp [destination?, he', heq]

theorem WellFormed.eraseEdge (hg : g.WellFormed) (h : EdgeHandle) :
    (g.eraseEdge h).2.WellFormed := by
  cases he : g.edge? h with
  | none => rw [eraseEdge_of_none he]; exact hg
  | some e => rw [eraseEdge_of_some he]; exact hg.withoutEdge he

theorem WellFormed.eraseEdges (hg : g.WellFormed) (hs : List EdgeHandle) :
    (g.eraseEdges hs).2.WellFormed := by
  induction hs generalizing g with
  | nil => exact hg
  | cons h hs ih =>
    unfold Graph.eraseEdges
    cases he : g.edge? h with
    | none => rw [eraseEdge_of_none he]; exact hg
    | some e => rw [eraseEdge_of_some he]; exact ih (hg.withoutEdge he)

theorem edge?_eraseEdges {hs : List EdgeHandle} (hok : (g.eraseEdges hs).1 = .ok ())
    (j : EdgeHandle) :
    (g.eraseEdges hs).2.edge? j = if j ∈ hs then none else g.edge? j := by
  induction hs generalizing g with
  | nil => simp [eraseEdges]
  | cons h hs ih =>
    unfold eraseEdges at hok ⊢
    cases he : g.edge? h with
    | none => rw [eraseEdge_of_none he] at hok; cases hok
    | some e =>
      rw [eraseEdge_of_some he] at hok ⊢
      rw [ih hok, edge?_withoutEdge]
      by_cases hj : j = h <;> simp [hj]

theorem mem_incidentEdges {n : Node} {e : EdgeHandle} :
    e ∈ incidentEdges n ↔ e ∈ n.inEdges ∨ e ∈ n.outEdges := by
  simp [incidentEdges]

theorem WellFormed.endpoints_ne_of_eraseEdges (hg : g.WellFormed) {h : NodeHandle} {n : Node}
    (hn : g.node? h = some n) (hok : (g.eraseEdges (incidentEdges n)).1 = .ok ()) (e : EdgeHandle) :
    (g.eraseEdges (incidentEdges n)).2.source? e ≠ some h ∧
      (g.eraseEdges (incidentEdges n)).2.destination? e ≠ some h := by
  have hfits := hg.nodes h n hn
  rw [source?, destination?, edge?_eraseEdges hok]
  split
  · simp
  · next hmem =>
    rw [mem_incidentEdges, not_or, hfits.inEdges.mem_iff, hfits.outEdges.mem_iff] at hmem
    exact ⟨hmem.2, hmem.1⟩

theorem WellFormed.eraseNode (hg : g.WellFormed) (h : NodeHandle) :
    (g.eraseNode h).2.WellFormed := by
  unfold Graph.eraseNode
  split
  · exact hg
  · next before hn =>
    have hwf := hg.eraseEdges (incidentEdges before)
    split
    · next heq => rw [heq] at hwf; exact hwf
    · next g' heq =>
      have hends := hg.endpoints_ne_of_eraseEdges hn (by rw [heq])
      rw [heq] at hwf hends
      split
      · exact hwf
      · next n hn' =>
        exact hwf.withoutNode hn' (fun e => (hends e).1) (fun e => (hends e).2)

end Erase

theorem WellFormed.updateNode (hg : g.WellFormed) (h : NodeHandle) (e : Node.Edit) :
    (g.updateNode h e).2.WellFormed := by
  unfold Graph.updateNode
  split
  · exact hg.modifyNode h fun n => n.edit_redraws e
  · exact hg

theorem WellFormed.updateEdge (hg : g.WellFormed) (h : EdgeHandle) (e : Edge.Edit) :
    (g.updateEdge h e).2.WellFormed := by
  unfold Graph.updateEdge
  split
  · exact hg.modifyEdge h fun f => f.edit_redraws e
  · exact hg

end Graph

namespace Operation

theorem apply_wellFormed {g : Graph} (hg : g.WellFormed) (op : Operation) :
    (op.apply g).2.WellFormed := by
  cases op with
  | putNode id label => exact hg.putNode id label
  | freshNode label draws => exact hg.freshNode label draws
  | putEdge r id label s d => exact hg.putEdge r id label s d
  | freshEdge r label s d draws => exact hg.freshEdge r label s d draws
  | eraseNode h => exact hg.eraseNode h
  | eraseEdge h => exact hg.eraseEdge h
  | updateNode h e => exact hg.updateNode h e
  | updateEdge h e => exact hg.updateEdge h e
  | editNode h edits => exact hg.modifyNode h fun n => n.editAll_redraws edits
  | editEdge h edits => exact hg.modifyEdge h fun e => e.editAll_redraws edits
  | clear => exact g.clear_wellFormed
  | clone id => exact hg.clone id

theorem run_wellFormed {g : Graph} (hg : g.WellFormed) (ops : List Operation) :
    (run ops g).2.WellFormed := by
  induction ops generalizing g with
  | nil => exact hg
  | cons op ops ih => exact ih (apply_wellFormed hg op)

theorem run_append (earlier later : List Operation) (g : Graph) :
    run (earlier ++ later) g =
      ((run earlier g).1 ++ (run later (run earlier g).2).1, (run later (run earlier g).2).2) := by
  induction earlier generalizing g with
  | nil => rfl
  | cons op earlier ih => simp only [List.cons_append, run, ih]

theorem run_append_singleton (ops : List Operation) (op : Operation) (g : Graph) :
    run (ops ++ [op]) g =
      ((run ops g).1 ++ [(op.apply (run ops g).2).1], (op.apply (run ops g).2).2) := by
  rw [run_append]
  rfl

theorem length_run (ops : List Operation) (g : Graph) : (run ops g).1.length = ops.length := by
  induction ops generalizing g with
  | nil => rfl
  | cons op ops ih => simp only [run, List.length_cons, ih]

theorem getElem?_run (earlier : List Operation) (op : Operation) (later : List Operation)
    (g : Graph) :
    (run (earlier ++ op :: later) g).1[earlier.length]? = some (op.apply (run earlier g).2).1 := by
  rw [run_append, ← length_run earlier g, List.getElem?_append_right (Nat.le_refl _), Nat.sub_self]
  rfl

end Operation

namespace Graph

def ofHistory (id : GraphId) (ops : List Operation) : Graph := (Operation.run ops (.empty id)).2

theorem ofHistory_wellFormed (id : GraphId) (ops : List Operation) :
    (ofHistory id ops).WellFormed :=
  Operation.run_wellFormed (empty_wellFormed id) ops

/-- After any history the registries, the edges and the edge lists tell one story: an id finds
exactly the entity that carries it, edges run between live nodes, and each list of a node holds
exactly its live edges, oldest first. -/
theorem ofHistory_consistent (id : GraphId) (ops : List Operation) :
    let g := ofHistory id ops
    (∀ s h, g.nodeHandle? s = some h ↔ ∃ n, g.node? h = some n ∧ n.id = s) ∧
    (∀ s k, g.edgeHandle? s = some k ↔ ∃ e, g.edge? k = some e ∧ e.id = s) ∧
    (∀ k e, g.edge? k = some e →
      g.hasNode e.source = true ∧ g.hasNode e.destination = true ∧ e.graph = g.id) ∧
    (∀ h n, g.node? h = some n →
      (n.outEdges.Pairwise (·.slot < ·.slot) ∧
        ∀ k, k ∈ n.outEdges ↔ ∃ e, g.edge? k = some e ∧ e.source = h) ∧
      (n.inEdges.Pairwise (·.slot < ·.slot) ∧
        ∀ k, k ∈ n.inEdges ↔ ∃ e, g.edge? k = some e ∧ e.destination = h) ∧
      n.categories.Nodup ∧ n.graph = g.id) := by
  intro g
  have hg : g.WellFormed := ofHistory_wellFormed id ops
  refine ⟨fun s h => ?_, fun s k => ?_, fun k e he => ?_, fun h n hn => ?_⟩
  · rw [hg.nodeIds s h, nodeId?, Option.map_eq_some_iff]
  · rw [hg.edgeIds s k, edgeId?, Option.map_eq_some_iff]
  · have hfits := hg.edges k e he
    exact ⟨hfits.source, hfits.destination, hfits.owner⟩
  · have hfits := hg.nodes h n hn
    refine ⟨⟨hfits.outEdges.increasing, fun k => ?_⟩, ⟨hfits.inEdges.increasing, fun k => ?_⟩,
      hfits.categories, hfits.owner⟩
    · rw [hfits.outEdges.mem_iff, source?, Option.map_eq_some_iff]
    · rw [hfits.inEdges.mem_iff, destination?, Option.map_eq_some_iff]

end Graph

end Multidigraph
