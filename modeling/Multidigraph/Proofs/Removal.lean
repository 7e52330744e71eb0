import Mathlib.Data.Finset.Lattice.Lemmas
import Multidigraph.Proofs.Remainder

namespace Multidigraph

theorem nodup_eraseDups {α : Type} [DecidableEq α] : (xs : List α) → xs.eraseDups.Nodup
  | [] => by simp
  | x :: xs => by
    rw [List.eraseDups_cons]
    exact List.nodup_cons.mpr ⟨by simp, nodup_eraseDups _⟩
  termination_by xs => xs.length
  decreasing_by exact Nat.lt_succ_of_le (List.length_filter_le _ xs)

namespace Graph

variable {g : Graph} {ns : Finset NodeHandle} {es : Finset EdgeHandle}

theorem hasEdge_iff {k : EdgeHandle} : g.hasEdge k = true ↔ ∃ e, g.edge? k = some e := by
  simp [hasEdge, Option.isSome_iff_exists]

theorem hasEdge_without (k : EdgeHandle) : (g.without ns es).hasEdge k = g.stays ns es k := by
  rw [hasEdge, edge?_without]
  cases hk : g.stays ns es k with
  | false => rfl
  | true =>
    obtain ⟨e, he, -⟩ := stays_iff.mp hk
    simp [he]

section Edges

theorem WellFormed.eraseEdge_eq (hg : g.WellFormed) {k : EdgeHandle} {e : Edge}
    (he : g.edge? k = some e) : g.eraseEdge k = (.ok e, g.without ∅ {k}) := by
  rw [eraseEdge_of_some he]
  congr 1
  refine hg.eq_without (hg.withoutEdge he) rfl (by simp [Graph.withoutEdge, Graph.modifyNode])
    (by simp [Graph.withoutEdge, Graph.modifyNode]) (fun h => ?_) fun j => ?_
  · rw [node?_withoutEdge, Option.map_map]
    rfl
  · rw [edge?_withoutEdge]
    by_cases hj : j = k
    · simp [stays, hj]
    · cases hf : g.edge? j <;> simp [stays, hj, hf]

theorem WellFormed.eraseEdges_eq (hg : g.WellFormed) {ks : List EdgeHandle} (hnodup : ks.Nodup)
    (hlive : ∀ k ∈ ks, g.hasEdge k = true) :
    g.eraseEdges ks = (.ok (), g.without ∅ ks.toFinset) := by
  induction ks generalizing g with
  | nil => simp [Graph.eraseEdges, hg.without_empty]
  | cons k ks ih =>
    obtain ⟨hk, hnodup⟩ := List.nodup_cons.mp hnodup
    obtain ⟨e, he⟩ := hasEdge_iff.mp (hlive k List.mem_cons_self)
    have hlive' : ∀ j ∈ ks, (g.without ∅ {k}).hasEdge j = true := by
      intro j hj
      obtain ⟨f, hf⟩ := hasEdge_iff.mp (hlive j (List.mem_cons_of_mem k hj))
      have hjk : j ≠ k := fun h => hk (h ▸ hj)
      rw [hasEdge_without]
      exact stays_iff.mpr ⟨f, hf, by simpa using hjk, by simp, by simp⟩
    unfold Graph.eraseEdges
    rw [hg.eraseEdge_eq he]
    dsimp only
    rw [ih (hg.without ∅ {k}) hnodup hlive', without_without, Finset.empty_union,
      List.toFinset_cons, Finset.insert_eq]

end Edges

section Nodes

variable {h : NodeHandle} {n : Node}

theorem WellFormed.mem_incidentEdges_iff (hg : g.WellFormed) (hn : g.node? h = some n)
    {k : EdgeHandle} :
    k ∈ incidentEdges n ↔ ∃ e, g.edge? k = some e ∧ (e.destination = h ∨ e.source = h) := by
  have hfits := hg.nodes h n hn
  rw [mem_incidentEdges, hfits.inEdges.mem_iff, hfits.outEdges.mem_iff, source?, destination?]
  cases g.edge? k <;> simp

theorem WellFormed.eraseEdges_incidentEdges (hg : g.WellFormed) (hn : g.node? h = some n) :
    g.eraseEdges (incidentEdges n) = (.ok (), g.without ∅ (incidentEdges n).toFinset) := by
  refine hg.eraseEdges_eq (nodup_eraseDups _) fun k hk => ?_
  obtain ⟨e, he, -⟩ := (hg.mem_incidentEdges_iff hn).mp hk
  exact hasEdge_iff.mpr ⟨e, he⟩

theorem node?_without_incidentEdges (hn : g.node? h = some n) :
    (g.without ∅ (incidentEdges n).toFinset).node? h = some n.bare := by
  have hgone : ∀ k ∈ incidentEdges n, g.stays ∅ (incidentEdges n).toFinset k = false := by
    intro k hk
    rw [← Bool.not_eq_true, stays_iff]
    rintro ⟨e, -, hstays, -⟩
    exact hstays (List.mem_toFinset.mpr hk)
  have hout : n.outEdges.filter (g.stays ∅ (incidentEdges n).toFinset) = [] := by
    refine List.filter_eq_nil_iff.mpr fun k hk => ?_
    simp [hgone k (mem_incidentEdges.mpr (.inr hk))]
  have hin : n.inEdges.filter (g.stays ∅ (incidentEdges n).toFinset) = [] := by
    refine List.filter_eq_nil_iff.mpr fun k hk => ?_
    simp [hgone k (mem_incidentEdges.mpr (.inl hk))]
  simp [node?_without, hn, hout, hin, Node.bare]

theorem WellFormed.stays_node (hg : g.WellFormed) (hn : g.node? h = some n) (k : EdgeHandle) :
    g.stays ∅ (incidentEdges n).toFinset k = g.stays {h} ∅ k := by
  rw [Bool.eq_iff_iff, stays_iff, stays_iff]
  refine exists_congr fun e => and_congr_right fun he => ?_
  have hmem : k ∈ incidentEdges n ↔ e.destination = h ∨ e.source = h := by
    rw [hg.mem_incidentEdges_iff hn, he]
    simp
  simp only [List.mem_toFinset, hmem, not_or, Finset.notMem_empty, not_false_eq_true,
    Finset.mem_singleton, true_and, and_true]
  exact and_comm

theorem WellFormed.eraseNode_eq (hg : g.WellFormed) (hn : g.node? h = some n) :
    g.eraseNode h = (.ok n.bare, g.without {h} ∅) := by
  have hedges := hg.eraseEdges_incidentEdges hn
  have hbare := node?_without_incidentEdges hn
  have hends := hg.endpoints_ne_of_eraseEdges hn (by rw [hedges])
  rw [hedges] at hends
  have herase : g.eraseNode h =
      (.ok n.bare, (g.without ∅ (incidentEdges n).toFinset).withoutNode h n.bare) := by
    simp only [Graph.eraseNode, hn, hedges, hbare]
    rfl
  rw [herase]
  congr 1
  refine hg.eq_without ((hg.without ∅ _).withoutNode hbare (fun e => (hends e).1)
    fun e => (hends e).2) rfl (by simp [Graph.withoutNode]) (by simp [Graph.withoutNode])
    (fun j => ?_) fun k => ?_
  · rw [node?_withoutNode, node?_without]
    by_cases hj : j = h
    · simp [hj]
    · simp only [hj, if_false, Finset.notMem_empty, Finset.mem_singleton, Option.map_map]
      rfl
  · rw [edge?_withoutNode, edge?_without, hg.stays_node hn]

end Nodes

end Graph

inductive Removal where
  | node (h : NodeHandle)
  | edge (k : EdgeHandle)
  deriving DecidableEq

namespace Removal

def operation : Removal → Operation
  | node h => .eraseNode h
  | edge k => .eraseEdge k

/-- Whether a list asks once for each of the nodes and once for each of the edges, in some order. -/
structure Orders (rs : List Removal) (ns : Finset NodeHandle) (es : Finset EdgeHandle) : Prop where
  nodup : rs.Nodup
  node_mem : ∀ h, node h ∈ rs ↔ h ∈ ns
  edge_mem : ∀ k, edge k ∈ rs ↔ k ∈ es

variable {rs : List Removal} {ns : Finset NodeHandle} {es : Finset EdgeHandle}

def nodesOf (rs : List Removal) : Finset NodeHandle :=
  (rs.filterMap fun | node h => some h | edge _ => none).toFinset

def edgesOf (rs : List Removal) : Finset EdgeHandle :=
  (rs.filterMap fun | node _ => none | edge k => some k).toFinset

@[simp] theorem mem_nodesOf {h : NodeHandle} : h ∈ nodesOf rs ↔ node h ∈ rs := by
  simp only [nodesOf, List.mem_toFinset, List.mem_filterMap]
  constructor
  · rintro ⟨r, hr, heq⟩
    cases r with
    | node h => cases heq; exact hr
    | edge k => cases heq
  · exact fun hh => ⟨node h, hh, rfl⟩

@[simp] theorem mem_edgesOf {k : EdgeHandle} : k ∈ edgesOf rs ↔ edge k ∈ rs := by
  simp only [edgesOf, List.mem_toFinset, List.mem_filterMap]
  constructor
  · rintro ⟨r, hr, heq⟩
    cases r with
    | node h => cases heq
    | edge k => cases heq; exact hr
  · exact fun hk => ⟨edge k, hk, rfl⟩

theorem Orders.nodesOf_eq (h : Orders rs ns es) : nodesOf rs = ns := by
  ext j
  rw [mem_nodesOf, h.node_mem]

theorem Orders.edgesOf_eq (h : Orders rs ns es) : edgesOf rs = es := by
  ext k
  rw [mem_edgesOf, h.edge_mem]

theorem nodesOf_append_node (rs : List Removal) (h : NodeHandle) :
    nodesOf (rs ++ [node h]) = nodesOf rs ∪ {h} ∧ edgesOf (rs ++ [node h]) = edgesOf rs := by
  constructor
  · ext j
    simp [or_comm]
  · ext k
    simp

theorem nodesOf_append_edge (rs : List Removal) (k : EdgeHandle) :
    nodesOf (rs ++ [edge k]) = nodesOf rs ∧ edgesOf (rs ++ [edge k]) = edgesOf rs ∪ {k} := by
  constructor
  · ext j
    simp
  · ext j
    simp [or_comm]

end Removal

namespace Graph

variable {g : Graph} {ns : Finset NodeHandle} {es : Finset EdgeHandle}

open Removal

section Step

theorem WellFormed.apply_eraseNode_without (hg : g.WellFormed) {h : NodeHandle} {n : Node}
    (hn : g.node? h = some n) (hh : h ∉ ns) :
    (Operation.eraseNode h).apply (g.without ns es) = (.node n.bare, g.without (ns ∪ {h}) es) := by
  have hlive : ∃ m, (g.without ns es).node? h = some m ∧ m.bare = n.bare := by
    rw [node?_without, if_neg hh, hn]
    exact ⟨_, rfl, rfl⟩
  obtain ⟨m, hm, hbare⟩ := hlive
  simp only [Operation.apply, (hg.without ns es).eraseNode_eq hm, Operation.answer,
    Outcome.ofExcept, hbare, without_without, Finset.union_empty]

/-- An edge that was not yet taken out is there, unless it went with one of its endpoints. -/
theorem WellFormed.apply_eraseEdge_without (hg : g.WellFormed) {k : EdgeHandle} {e : Edge}
    (he : g.edge? k = some e) (hk : k ∉ es) :
    (Operation.eraseEdge k).apply (g.without ns es) =
      (if e.source ∈ ns ∨ e.destination ∈ ns then .failed (.edgeNotFound k.text) else .edge e,
        g.without ns (es ∪ {k})) := by
  have hedge : (g.without ns es).edge? k =
      if e.source ∈ ns ∨ e.destination ∈ ns then none else some e := by
    rw [edge?_without, he]
    by_cases hs : e.source ∈ ns <;> by_cases hd : e.destination ∈ ns <;>
      simp [stays, he, hk, hs, hd]
  split
  · next hends =>
    rw [if_pos hends] at hedge
    have hstays : ∀ j, g.stays ns es j = g.stays ns (es ∪ {k}) j := by
      intro j
      by_cases hj : j = k
      · subst hj
        simp only [stays, he, Option.any_some, Finset.mem_union, Finset.mem_singleton]
        obtain hs | hd := hends
        · simp [hs]
        · simp [hd]
      · simp [stays, hj]
    rw [← without_congr hstays]
    simp only [Operation.apply, eraseEdge_of_none hedge, Operation.answer, Outcome.ofExcept]
  · next hends =>
    rw [if_neg hends] at hedge
    simp only [Operation.apply, (hg.without ns es).eraseEdge_eq hedge, Operation.answer,
      Outcome.ofExcept, without_without, Finset.union_empty]

end Step

theorem WellFormed.run_removals (hg : g.WellFormed) {rs : List Removal} (hnodup : rs.Nodup)
    (hnodes : ∀ h, node h ∈ rs → g.hasNode h = true)
    (hedges : ∀ k, edge k ∈ rs → g.hasEdge k = true) :
    (Operation.run (rs.map operation) g).2 = g.without (nodesOf rs) (edgesOf rs) := by
  induction rs using List.reverseRecOn with
  | nil => exact hg.without_empty.symm
  | append_singleton rs r ih =>
    obtain ⟨hrs, -, hr⟩ := List.nodup_append.mp hnodup
    have hnew : r ∉ rs := fun hmem => hr r hmem r List.mem_cons_self rfl
    have hrun := ih hrs (fun h hh => hnodes h (List.mem_append_left _ hh))
      fun k hk => hedges k (List.mem_append_left _ hk)
    have hlast : (Operation.run ((rs ++ [r]).map operation) g).2 =
        (r.operation.apply (g.without (nodesOf rs) (edgesOf rs))).2 := by
      rw [List.map_append, Operation.run_append, hrun]
      rfl
    rw [hlast]
    cases r with
    | node h =>
      obtain ⟨n, hn⟩ := hasNode_iff.mp (hnodes h (by simp))
      obtain ⟨hns, hes⟩ := nodesOf_append_node rs h
      rw [operation, hg.apply_eraseNode_without hn (by simpa using hnew), hns, hes]
    | edge k =>
      obtain ⟨e, he⟩ := hasEdge_iff.mp (hedges k (by simp))
      obtain ⟨hns, hes⟩ := nodesOf_append_edge rs k
      rw [operation, hg.apply_eraseEdge_without he (by simpa using hnew), hns, hes]

/-- Nodes and edges are taken out of any graph in any order: the graph that is left is the same.
Each node is answered without edges. Each edge is answered too, unless it went with a node
before. -/
theorem removals_ofHistory (id : GraphId) (ops : List Operation) (ns : Finset NodeHandle)
    (es : Finset EdgeHandle) (rs : List Removal) (hrs : Orders rs ns es)
    (hns : ∀ h ∈ ns, (ofHistory id ops).hasNode h = true)
    (hes : ∀ k ∈ es, (ofHistory id ops).hasEdge k = true) :
    let g := ofHistory id ops
    let result := Operation.run (rs.map operation) g
    result.2 = g.without ns es ∧
    (∀ earlier h later, rs = earlier ++ node h :: later →
      ∃ n, g.node? h = some n ∧
        result.1[earlier.length]? = some (.node { n with outEdges := [], inEdges := [] })) ∧
    ∀ earlier k later, rs = earlier ++ edge k :: later →
      ∃ e, g.edge? k = some e ∧
        result.1[earlier.length]? =
          some (if node e.source ∈ earlier ∨ node e.destination ∈ earlier
            then .failed (.edgeNotFound k.text) else .edge e) := by
  intro g result
  have hg : g.WellFormed := ofHistory_wellFormed id ops
  have hnodes : ∀ h, node h ∈ rs → g.hasNode h = true := fun h hh => hns h ((hrs.node_mem h).mp hh)
  have hedges : ∀ k, edge k ∈ rs → g.hasEdge k = true := fun k hk => hes k ((hrs.edge_mem k).mp hk)
  -- the answer of a removal is that of its operation on what the earlier ones left
  have hanswer : ∀ earlier r later, rs = earlier ++ r :: later →
      r ∉ earlier ∧ result.1[earlier.length]? =
        some (r.operation.apply (g.without (nodesOf earlier) (edgesOf earlier))).1 := by
    rintro earlier r later rfl
    obtain ⟨hearlier, -, hr⟩ := List.nodup_append.mp hrs.nodup
    have hrun := hg.run_removals hearlier (fun h hh => hnodes h (List.mem_append_left _ hh))
      fun k hk => hedges k (List.mem_append_left _ hk)
    refine ⟨fun hmem => hr r hmem r List.mem_cons_self rfl, ?_⟩
    have hget := Operation.getElem?_run (earlier.map operation) r.operation (later.map operation) g
    rw [List.length_map, hrun] at hget
    simpa [result] using hget
  refine ⟨?_, fun earlier h later heq => ?_, fun earlier k later heq => ?_⟩
  · rw [← hrs.nodesOf_eq, ← hrs.edgesOf_eq]
    exact hg.run_removals hrs.nodup hnodes hedges
  · obtain ⟨hnew, hget⟩ := hanswer earlier _ later heq
    obtain ⟨n, hn⟩ := hasNode_iff.mp (hnodes h (by simp [heq]))
    refine ⟨n, hn, ?_⟩
    rw [hget, operation, hg.apply_eraseNode_without hn (by simpa using hnew)]
    rfl
  · obtain ⟨hnew, hget⟩ := hanswer earlier _ later heq
    obtain ⟨e, he⟩ := hasEdge_iff.mp (hedges k (by simp [heq]))
    refine ⟨e, he, ?_⟩
    rw [hget, operation, hg.apply_eraseEdge_without he (by simpa using hnew)]
    simp only [mem_nodesOf]

/-- Two nodes go that share two edges, one of them with a loop. One of the shared edges is asked for
when it has gone. -/
theorem removals_ofHistory_shared :
    let ops : List Operation := [.putNode "a" "", .putNode "b" "", .putNode "c" "",
      .putEdge .default "aa" "" ⟨0⟩ ⟨0⟩, .putEdge .default "ab" "" ⟨0⟩ ⟨1⟩,
      .putEdge (.named "r") "ab'" "" ⟨0⟩ ⟨1⟩, .putEdge .default "bc" "" ⟨1⟩ ⟨2⟩,
      .putEdge .default "ca" "" ⟨2⟩ ⟨0⟩, .putEdge .default "cc" "" ⟨2⟩ ⟨2⟩,
      .putEdge .default "cc'" "" ⟨2⟩ ⟨2⟩]
    let g := ofHistory ⟨⟨0⟩⟩ ops
    let ns : Finset NodeHandle := {⟨1⟩, ⟨0⟩}
    let es : Finset EdgeHandle := {⟨5⟩, ⟨1⟩, ⟨4⟩}
    let rs : List Removal := [edge ⟨5⟩, node ⟨1⟩, edge ⟨1⟩, edge ⟨4⟩, node ⟨0⟩]
    let result := Operation.run (rs.map operation) g
    Orders rs ns es ∧ (∀ h ∈ ns, g.hasNode h = true) ∧ (∀ k ∈ es, g.hasEdge k = true) ∧
      result.2 = g.without ns es ∧
      (∃ n, g.node? ⟨0⟩ = some n ∧ n.inEdges = [⟨0⟩, ⟨4⟩] ∧
        result.1[4]? = some (.node { n with outEdges := [], inEdges := [] })) ∧
      (∃ e, g.edge? ⟨1⟩ = some e ∧ e.destination = ⟨1⟩ ∧
        result.1[2]? = some (.failed (.edgeNotFound (EdgeHandle.text ⟨1⟩)))) ∧
      result.2.outEdges ⟨2⟩ = [⟨6⟩] ∧ result.2.edgeHandle? "bc" = none := by
  intro ops g ns es rs result
  have hrs : Orders rs ns es := by
    refine ⟨by decide, fun h => ?_, fun k => ?_⟩
    · simp [rs, ns]
    · simp [rs, es]
  have hns : ∀ h ∈ ns, g.hasNode h = true := by decide +kernel
  have hes : ∀ k ∈ es, g.hasEdge k = true := by decide +kernel
  obtain ⟨hleft, hnode, hedge⟩ := removals_ofHistory ⟨⟨0⟩⟩ ops ns es rs hrs hns hes
  obtain ⟨n, hn, hna⟩ := hnode [edge ⟨5⟩, node ⟨1⟩, edge ⟨1⟩, edge ⟨4⟩] ⟨0⟩ [] rfl
  obtain ⟨e, he, hea⟩ := hedge [edge ⟨5⟩, node ⟨1⟩] ⟨1⟩ [edge ⟨4⟩, node ⟨0⟩] rfl
  have hin : (g.node? ⟨0⟩).map Node.inEdges = some [⟨0⟩, ⟨4⟩] := by decide +kernel
  have hdestination : (g.edge? ⟨1⟩).map Edge.destination = some ⟨1⟩ := by decide +kernel
  rw [hn] at hin
  rw [he] at hdestination
  replace hdestination : e.destination = ⟨1⟩ := Option.some.inj hdestination
  have hgone : node e.source ∈ [edge ⟨5⟩, node ⟨1⟩] ∨ node e.destination ∈ [edge ⟨5⟩, node ⟨1⟩] :=
    .inr (by simp [hdestination])
  rw [if_pos hgone] at hea
  exact ⟨hrs, hns, hes, hleft, ⟨n, hn, Option.some.inj hin, hna⟩, ⟨e, he, hdestination, hea⟩,
    by decide +kernel, by decide +kernel⟩

end Graph

end Multidigraph
