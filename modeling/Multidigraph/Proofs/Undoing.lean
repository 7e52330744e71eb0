import Multidigraph.Proofs.EmptySlots
import Multidigraph.Proofs.Permanence

namespace Multidigraph

namespace Operation

def asksForNew (g : Graph) : Operation → Bool
  | putNode id _ => (g.nodeHandle? id).isNone
  | putEdge _ id _ _ _ => (g.edgeHandle? id).isNone
  | freshNode _ _ | freshEdge _ _ _ _ _ => true
  | _ => false

def askForNew : List Operation → Graph → Bool
  | [], _ => true
  | op :: ops, g => op.asksForNew g && askForNew ops (op.apply g).2

end Operation

namespace Graph

variable {g g' g'' : Graph}

theorem node?_of_not_used {h : NodeHandle} (hh : ¬ g.Used (.node h)) : g.node? h = none :=
  g.nodeSlots.get?_eq_none_of_size_le (Nat.le_of_not_lt hh)

theorem edge?_of_not_used {k : EdgeHandle} (hk : ¬ g.Used (.edge k)) : g.edge? k = none :=
  g.edgeSlots.get?_eq_none_of_size_le (Nat.le_of_not_lt hk)

section Adds

/-- Whether a graph has become another one to which nodes and edges may have been added, while what
was there is as it was, except that nodes may list more edges. -/
structure Adds (g g' : Graph) : Prop where
  id : g'.id = g.id
  ages : g.Ages g'
  nodes : ∀ h, g.Used (.node h) → (g'.node? h).map Node.bare = (g.node? h).map Node.bare
  edges : ∀ k, g.Used (.edge k) → g'.edge? k = g.edge? k

theorem Adds.refl (g : Graph) : g.Adds g := ⟨rfl, .refl g, fun _ _ => rfl, fun _ _ => rfl⟩

theorem Adds.trans (h : g.Adds g') (h' : g'.Adds g'') : g.Adds g'' where
  id := h'.id.trans h.id
  ages := h.ages.trans h'.ages
  nodes j hj := (h'.nodes j (h.ages.used hj)).trans (h.nodes j hj)
  edges k hk := (h'.edges k (h.ages.used hk)).trans (h.edges k hk)

theorem adds_insertNode (g : Graph) (id label : String) : g.Adds (g.insertNode id label).2 where
  id := rfl
  ages := g.ages_insertNode id label
  nodes h hh := by
    have hne : h ≠ g.nextNode := by
      rintro rfl
      exact Nat.lt_irrefl _ hh
    rw [node?_insertNode, if_neg hne]
  edges _ _ := rfl

theorem adds_insertEdge (g : Graph) (r : Relation) (id label : String) (s d : NodeHandle) :
    g.Adds (g.insertEdge r id label s d).2 where
  id := rfl
  ages := g.ages_insertEdge r id label s d
  nodes h _ := by
    rw [node?_insertEdge, Option.map_map]
    rfl
  edges k hk := by
    have hne : k ≠ g.nextEdge := by
      rintro rfl
      exact Nat.lt_irrefl _ hk
    rw [edge?_insertEdge, if_neg hne]

theorem Adds.isSome_identity? (h : g.Adds g') {x : EntityHandle}
    (hx : (g.identity? x).isSome = true) : (g'.identity? x).isSome = true := by
  obtain ⟨i, hi⟩ := Option.isSome_iff_exists.mp hx
  have hused := used_of_identity? hi
  cases x with
  | node j =>
    have hbare := congrArg Option.isSome (h.nodes j hused)
    simp only [Option.isSome_map] at hbare
    simpa [Graph.identity?, hbare] using hx
  | edge k => simpa [Graph.identity?, h.edges k hused] using hx

/-- What an operation that asks for something new may answer and leave. -/
inductive Creation (g : Graph) : Outcome × Graph → Prop
  | nothing {o : Outcome} : o.handle? = none → g.Creation (o, g)
  | node (id label : String) : g.Creation (.nodeHandle g.nextNode, (g.insertNode id label).2)
  | edge (r : Relation) (id label : String) (s d : NodeHandle) :
    g.Creation (.edgeHandle g.nextEdge, (g.insertEdge r id label s d).2)

theorem Creation.adds {result : Outcome × Graph} (h : g.Creation result) : g.Adds result.2 := by
  cases h with
  | nothing _ => exact .refl g
  | node id label => exact g.adds_insertNode id label
  | edge r id label s d => exact g.adds_insertEdge r id label s d

theorem Creation.not_used {result : Outcome × Graph} (h : g.Creation result) {x : EntityHandle}
    (hx : result.1.handle? = some x) : ¬ g.Used x := by
  cases h with
  | nothing hnone =>
    rw [hnone] at hx
    cases hx
  | node id label | edge r id label s d =>
    cases hx
    exact Nat.lt_irrefl _

end Adds

end Graph

namespace Operation

variable {g : Graph} {op : Operation} {ops : List Operation}

theorem apply_creation (hop : op.asksForNew g = true) : g.Creation (op.apply g) := by
  cases op with
  | putNode id label =>
    have hid : g.nodeHandle? id = none := by simpa [asksForNew] using hop
    simp only [apply, Graph.putNode, hid]
    exact .node id label
  | freshNode label draws =>
    simp only [apply, Graph.freshNode]
    split
    · exact .nothing rfl
    · exact .node _ label
  | putEdge r id label s d =>
    have hid : g.edgeHandle? id = none := by simpa [asksForNew] using hop
    simp only [apply, Graph.putEdge, hid]
    split
    · exact .nothing rfl
    · exact .edge r id label s d
  | freshEdge r label s d draws =>
    simp only [apply, Graph.freshEdge]
    split
    · exact .nothing rfl
    · split
      · exact .nothing rfl
      · exact .edge r _ label s d
  | _ => cases hop

theorem run_adds (hops : askForNew ops g = true) : g.Adds (run ops g).2 := by
  induction ops generalizing g with
  | nil => exact .refl g
  | cons op ops ih =>
    obtain ⟨hop, hops⟩ := (Bool.and_eq_true _ _).mp hops
    exact (apply_creation hop).adds.trans (ih hops)

theorem new_of_mem_issued (hg : g.WellFormed) (hops : askForNew ops g = true) {x : EntityHandle}
    (hx : x ∈ issued ops g) : ¬ g.Used x ∧ ((run ops g).2.identity? x).isSome = true := by
  induction ops generalizing g with
  | nil => cases hx
  | cons op ops ih =>
    obtain ⟨hop, hops⟩ := (Bool.and_eq_true _ _).mp hops
    have hcreation := apply_creation hop
    obtain hnow | hlater := (issued_cons op ops g).mp hx
    · exact ⟨hcreation.not_used hnow,
        (run_adds hops).isSome_identity? ((apply_issues hg op).live x hnow)⟩
    -- what was not used after the first operation was not used before it
    · obtain ⟨hunused, hlive⟩ := ih (apply_wellFormed hg op) hops hlater
      exact ⟨fun hused => hunused (hcreation.adds.ages.used hused), hlive⟩

end Operation

namespace Removal

def handle : Removal → EntityHandle
  | node h => .node h
  | edge k => .edge k

/-- Whether removals take out all that was made, and nothing else: each asks for something that was
made, and none asks twice. An edge that goes with a node need not be asked for. -/
structure Undo (made : List EntityHandle) (g : Graph) (rs : List Removal) : Prop where
  nodup : rs.Nodup
  asked : ∀ r ∈ rs, r.handle ∈ made
  nodes : ∀ h, EntityHandle.node h ∈ made → node h ∈ rs
  edges : ∀ k, EntityHandle.edge k ∈ made → edge k ∈ rs ∨
    ∃ h, EntityHandle.node h ∈ made ∧ (g.source? k = some h ∨ g.destination? k = some h)

end Removal

namespace Graph

variable {g g' : Graph} {made : List EntityHandle} {rs : List Removal}

open Removal

section Rest

variable (hmade : ∀ x, x ∈ made ↔ g'.Used x ∧ ¬ g.Used x) (hrs : Undo made g' rs)

include hmade hrs

theorem notMem_nodesOf_of_used {h : NodeHandle} (hused : g.Used (.node h)) : h ∉ nodesOf rs :=
  fun hmem => ((hmade _).mp (hrs.asked _ (mem_nodesOf.mp hmem))).2 hused

theorem mem_nodesOf_of_new {h : NodeHandle} (hused : g'.Used (.node h))
    (hnew : ¬ g.Used (.node h)) : h ∈ nodesOf rs :=
  mem_nodesOf.mpr (hrs.nodes h ((hmade _).mpr ⟨hused, hnew⟩))

theorem WellFormed.stays_of_edge? (hg : g.WellFormed) {k : EdgeHandle} {e : Edge}
    (he : g.edge? k = some e) (he' : g'.edge? k = some e) :
    g'.stays (nodesOf rs) (edgesOf rs) k = true := by
  have hend : ∀ {h}, g.hasNode h = true → h ∉ nodesOf rs := fun hh => by
    obtain ⟨n, hn⟩ := hasNode_iff.mp hh
    exact notMem_nodesOf_of_used hmade hrs (slot_lt_of_node? hn)
  refine stays_iff.mpr ⟨e, he', fun hmem => ?_, hend (hg.edges k e he).source,
    hend (hg.edges k e he).destination⟩
  exact ((hmade _).mp (hrs.asked _ (mem_edgesOf.mp hmem))).2 (slot_lt_of_edge? he)

theorem stays_eq_false_of_new {k : EdgeHandle} (hnew : ¬ g.Used (.edge k)) :
    g'.stays (nodesOf rs) (edgesOf rs) k = false := by
  rw [← Bool.not_eq_true, stays_iff]
  rintro ⟨e, he, hk, hs, hd⟩
  obtain hasked | ⟨h, hh, hends⟩ := hrs.edges k ((hmade _).mpr ⟨slot_lt_of_edge? he, hnew⟩)
  · exact hk (mem_edgesOf.mpr hasked)
  · have hgone : h ∈ nodesOf rs := mem_nodesOf.mpr (hrs.nodes h hh)
    simp only [source?, destination?, he, Option.map_some, Option.some.injEq] at hends
    obtain rfl | rfl := hends
    · exact hs hgone
    · exact hd hgone

theorem Adds.map_bare_node?_without (hadds : g.Adds g') (h : NodeHandle) :
    ((g'.without (nodesOf rs) (edgesOf rs)).node? h).map Node.bare =
      (g.node? h).map Node.bare := by
  rw [node?_without]
  by_cases hused : g.Used (.node h)
  · rw [if_neg (notMem_nodesOf_of_used hmade hrs hused), Option.map_map, ← hadds.nodes h hused]
    rfl
  · rw [node?_of_not_used hused]
    split
    · rfl
    · next hstays =>
      have hunused : ¬ g'.Used (.node h) := fun hused' =>
        hstays (mem_nodesOf_of_new hmade hrs hused' hused)
      rw [node?_of_not_used hunused]
      rfl

theorem Adds.edge?_without (hadds : g.Adds g') (hg : g.WellFormed) (k : EdgeHandle) :
    (g'.without (nodesOf rs) (edgesOf rs)).edge? k = g.edge? k := by
  rw [Graph.edge?_without]
  by_cases hused : g.Used (.edge k)
  · rw [hadds.edges k hused]
    cases he : g.edge? k with
    | none => simp
    | some e => rw [hg.stays_of_edge? hmade hrs he ((hadds.edges k hused).trans he), if_pos rfl]
  · rw [stays_eq_false_of_new hmade hrs hused, edge?_of_not_used hused]
    rfl

theorem Adds.without_eq (hadds : g.Adds g') (hg : g.WellFormed) (hg' : g'.WellFormed) :
    g'.without (nodesOf rs) (edgesOf rs) =
      g.withEmptySlots (g'.nodeSlots.size - g.nodeSlots.size)
        (g'.edgeSlots.size - g.edgeSlots.size) := by
  have hnodes := hadds.ages.nodes.size_le
  have hedges := hadds.ages.edges.size_le
  refine (hg'.without _ _).ext (hg.withEmptySlots _ _) hadds.id ?_ ?_ (fun h => ?_) fun k => ?_
  · simp only [size_nodeSlots_without, withEmptySlots, Arena.size_withEmptySlots]
    omega
  · simp only [size_edgeSlots_without, withEmptySlots, Arena.size_withEmptySlots]
    omega
  · rw [node?_withEmptySlots, hadds.map_bare_node?_without hmade hrs h]
  · rw [edge?_withEmptySlots, hadds.edge?_without hmade hrs hg k]

end Rest

theorem WellFormed.getElem?_run_removals (hg : g.WellFormed) {earlier later : List Removal}
    {h : NodeHandle} {n : Node} (hnodup : (earlier ++ node h :: later).Nodup)
    (hnodes : ∀ j, node j ∈ earlier → g.hasNode j = true)
    (hedges : ∀ k, edge k ∈ earlier → g.hasEdge k = true) (hn : g.node? h = some n) :
    (Operation.run ((earlier ++ node h :: later).map operation) g).1[earlier.length]? =
      some (.node n.bare) := by
  obtain ⟨hearlier, -, hnew⟩ := List.nodup_append.mp hnodup
  have hh : h ∉ nodesOf earlier := fun hmem =>
    hnew _ (mem_nodesOf.mp hmem) _ List.mem_cons_self rfl
  have hget := Operation.getElem?_run (earlier.map operation) (.eraseNode h)
    (later.map operation) g
  rw [List.length_map, hg.run_removals hearlier hnodes hedges,
    hg.apply_eraseNode_without hn hh] at hget
  simpa [operation] using hget

/-- When all that was made is taken out again, in whichever order, the graph is what it was before,
but for empty slots at the end of its arenas, and no question tells the two apart. Each node that
was made is there when its turn comes. What was made may be any nodes and edges under ids that were
not in use, with edges between old and new nodes, loops and parallel edges. -/
theorem undo_ofHistory (id : GraphId) (history creations : List Operation) (rs : List Removal) :
    let before := ofHistory id history
    let made := Operation.issued creations before
    let grown := (Operation.run creations before).2
    let result := Operation.run (rs.map operation) grown
    Operation.askForNew creations before = true → Undo made grown rs →
      (∃ m n, result.2 = before.withEmptySlots m n) ∧
      (∀ q : Question, q.reply result.2 = q.reply before) ∧
      ∀ earlier h later, rs = earlier ++ node h :: later →
        ∃ n, grown.node? h = some n ∧ result.1[earlier.length]? = some (.node n.bare) := by
  intro before made grown result hnew hrs
  have hbefore : before.WellFormed := ofHistory_wellFormed id history
  have hgrown : grown.WellFormed := Operation.run_wellFormed hbefore creations
  have hlive : ∀ x ∈ made, ¬ before.Used x ∧ (grown.identity? x).isSome = true := fun x hx =>
    Operation.new_of_mem_issued hbefore hnew hx
  have hmade : ∀ x, x ∈ made ↔ grown.Used x ∧ ¬ before.Used x := by
    intro x
    rw [Operation.used_run_iff hbefore creations]
    constructor
    · exact fun hx => ⟨.inr hx, (hlive x hx).1⟩
    · rintro ⟨hused | hx, hnot⟩
      · exact absurd hused hnot
      · exact hx
  have hnodes : ∀ h, node h ∈ rs → grown.hasNode h = true := fun h hh => by
    simpa [Removal.handle, identity?, hasNode] using (hlive _ (hrs.asked _ hh)).2
  have hedges : ∀ k, edge k ∈ rs → grown.hasEdge k = true := fun k hk => by
    simpa [Removal.handle, identity?, hasEdge] using (hlive _ (hrs.asked _ hk)).2
  have hresult := (hgrown.run_removals hrs.nodup hnodes hedges).trans
    ((Operation.run_adds hnew).without_eq hmade hrs hbefore hgrown)
  refine ⟨⟨_, _, hresult⟩, fun q => ?_, fun earlier h later heq => ?_⟩
  · rw [hresult, Question.reply_withEmptySlots]
  · obtain ⟨n, hn⟩ := hasNode_iff.mp (hnodes h (by simp [heq]))
    refine ⟨n, hn, ?_⟩
    have hnodup := hrs.nodup
    subst heq
    exact hgrown.getElem?_run_removals hnodup (fun j hj => hnodes j (List.mem_append_left _ hj))
      (fun k hk => hedges k (List.mem_append_left _ hk)) hn

/-- Two nodes are made, with edges between them, to and from the old nodes, a loop on each kind of
node and an edge that runs along an old one. Three of the edges go with their nodes. -/
theorem undo_ofHistory_mixed :
    let history : List Operation := [.putNode "a" "x", .putNode "gone" "", .putNode "b" "",
      .putEdge .default "ab" "" ⟨0⟩ ⟨2⟩, .eraseNode ⟨1⟩]
    let creations : List Operation := [.putNode "c" "", .putEdge .default "ac" "" ⟨0⟩ ⟨3⟩,
      .putEdge (.named "r") "ca" "" ⟨3⟩ ⟨0⟩, .putEdge .default "cc" "" ⟨3⟩ ⟨3⟩,
      .putEdge .default "ab'" "" ⟨0⟩ ⟨2⟩, .putEdge .default "bb" "" ⟨2⟩ ⟨2⟩, .putNode "gone" "",
      .putEdge .default "c-gone" "" ⟨3⟩ ⟨4⟩]
    let rs : List Removal := [edge ⟨4⟩, node ⟨4⟩, edge ⟨1⟩, node ⟨3⟩, edge ⟨5⟩]
    let before := ofHistory ⟨⟨0⟩⟩ history
    let made := Operation.issued creations before
    let grown := (Operation.run creations before).2
    let result := Operation.run (rs.map operation) grown
    Operation.askForNew creations before = true ∧ Undo made grown rs ∧
      (∃ m n, result.2 = before.withEmptySlots m n) ∧
      (∃ n, grown.node? ⟨3⟩ = some n ∧ n.inEdges = [⟨1⟩, ⟨3⟩] ∧
        result.1[3]? = some (.node n.bare)) ∧
      grown.outEdges ⟨0⟩ = [⟨0⟩, ⟨1⟩, ⟨4⟩] ∧ result.2.outEdges ⟨0⟩ = [⟨0⟩] ∧
      result.2.nodeSlots.size = 5 := by
  intro history creations rs before made grown result
  have hnew : Operation.askForNew creations before = true := by decide +kernel
  have hmade : made = [.node ⟨3⟩, .edge ⟨1⟩, .edge ⟨2⟩, .edge ⟨3⟩, .edge ⟨4⟩, .edge ⟨5⟩,
      .node ⟨4⟩, .edge ⟨6⟩] := by decide +kernel
  have hrs : Undo made grown rs := by
    rw [hmade]
    refine ⟨by decide, by decide, fun h hh => ?_, fun k hk => ?_⟩
    · obtain rfl | rfl : h = ⟨3⟩ ∨ h = ⟨4⟩ := by simpa using hh
      · decide
      · decide
    · have hsource : grown.source? ⟨2⟩ = some ⟨3⟩ ∧ grown.source? ⟨3⟩ = some ⟨3⟩ ∧
          grown.source? ⟨6⟩ = some ⟨3⟩ := by decide +kernel
      obtain ⟨hca, hcc, hcgone⟩ := hsource
      simp only [List.mem_cons, EntityHandle.edge.injEq, reduceCtorEq, List.not_mem_nil, or_false,
        false_or] at hk
      obtain rfl | rfl | rfl | rfl | rfl | rfl := hk
      · exact .inl (by decide)
      · exact .inr ⟨⟨3⟩, by decide, .inl hca⟩
      · exact .inr ⟨⟨3⟩, by decide, .inl hcc⟩
      · exact .inl (by decide)
      · exact .inl (by decide)
      · exact .inr ⟨⟨3⟩, by decide, .inl hcgone⟩
  obtain ⟨hleft, -, hanswer⟩ := undo_ofHistory ⟨⟨0⟩⟩ history creations rs hnew hrs
  obtain ⟨n, hn, hna⟩ := hanswer [edge ⟨4⟩, node ⟨4⟩, edge ⟨1⟩] ⟨3⟩ [edge ⟨5⟩] rfl
  have hin : (grown.node? ⟨3⟩).map Node.inEdges = some [⟨1⟩, ⟨3⟩] := by decide +kernel
  rw [hn] at hin
  exact ⟨hnew, hrs, hleft, ⟨n, hn, Option.some.inj hin, hna⟩, by decide +kernel,
    by decide +kernel, by decide +kernel⟩

end Graph

end Multidigraph
