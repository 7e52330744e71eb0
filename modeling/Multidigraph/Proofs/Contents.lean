import Mathlib.Data.List.Nodup
import Multidigraph.Proofs.History
import Multidigraph.Proofs.Listing
import Multidigraph.Query

namespace Multidigraph

theorem map_eq_map_cases {α β γ : Type} {f : α → γ} {f' : β → γ} {x : Option α} {y : Option β}
    (h : x.map f = y.map f') :
    (x = none ∧ y = none) ∨ ∃ a b, x = some a ∧ y = some b ∧ f a = f' b := by
  cases x with
  | none => exact .inl ⟨rfl, Option.map_eq_none_iff.mp h.symm⟩
  | some a =>
    obtain ⟨b, hb, hab⟩ := Option.map_eq_some_iff.mp h.symm
    exact .inr ⟨a, b, rfl, hb, hab.symm⟩

structure NodeContent where
  label : String
  categories : List Category
  deriving DecidableEq

/-- What an edge is, beside its id; endpoints are told by id. -/
structure EdgeContent where
  label : String
  weight : Weight
  relation : String
  source : Option String
  destination : Option String
  deriving DecidableEq

namespace Graph

variable {g g' : Graph}

def nodeContent (n : Node) : NodeContent := ⟨n.label, n.categories⟩

def edgeContent (g : Graph) (e : Edge) : EdgeContent :=
  ⟨e.label, e.weight, e.relation.name, g.nodeId? e.source, g.nodeId? e.destination⟩

/-- Whether two graphs hold the same nodes and edges, as far as ids tell. -/
structure SameContents (g g' : Graph) : Prop where
  nodes : ∀ s, (g.nodeOfId? s).map nodeContent = (g'.nodeOfId? s).map nodeContent
  edges : ∀ s, (g.edgeOfId? s).map g.edgeContent = (g'.edgeOfId? s).map g'.edgeContent

def nodeTable (g : Graph) : Std.ExtTreeMap String NodeContent :=
  g.nodeIds.filterMap fun _ h => (g.node? h).map nodeContent

def edgeTable (g : Graph) : Std.ExtTreeMap String EdgeContent :=
  g.edgeIds.filterMap fun _ k => (g.edge? k).map g.edgeContent

theorem getElem?_nodeTable (g : Graph) (s : String) :
    g.nodeTable[s]? = (g.nodeOfId? s).map nodeContent := by
  rw [nodeTable, Std.ExtTreeMap.getElem?_filterMap', nodeOfId?, Option.map_bind]
  rfl

theorem getElem?_edgeTable (g : Graph) (s : String) :
    g.edgeTable[s]? = (g.edgeOfId? s).map g.edgeContent := by
  rw [edgeTable, Std.ExtTreeMap.getElem?_filterMap', edgeOfId?, Option.map_bind]
  rfl

theorem sameContents_iff_tables :
    SameContents g g' ↔ g.nodeTable.toList = g'.nodeTable.toList ∧
      g.edgeTable.toList = g'.edgeTable.toList := by
  constructor
  · rintro ⟨hnodes, hedges⟩
    simp only [← getElem?_nodeTable, ← getElem?_edgeTable] at hnodes hedges
    rw [Std.ExtTreeMap.ext_getElem? hnodes, Std.ExtTreeMap.ext_getElem? hedges]
    exact ⟨rfl, rfl⟩
  · rintro ⟨hnodes, hedges⟩
    have hnodes := Std.ExtTreeMap.ext_toList (.of_eq hnodes)
    have hedges := Std.ExtTreeMap.ext_toList (.of_eq hedges)
    refine ⟨fun s => ?_, fun s => ?_⟩
    · rw [← getElem?_nodeTable, ← getElem?_nodeTable, hnodes]
    · rw [← getElem?_edgeTable, ← getElem?_edgeTable, hedges]

instance : Decidable (SameContents g g') := decidable_of_iff _ sameContents_iff_tables.symm

section EdgeIds

variable {near : Edge → NodeHandle} {h : NodeHandle} {s : String} {ks : List EdgeHandle}

theorem WellFormed.mem_edgeIds_iff (hg : g.WellFormed)
    (hks : Lists ks fun k => (g.edge? k).map near = some h) (hs : g.nodeId? h = some s)
    {t : String} :
    t ∈ ks.filterMap g.edgeId? ↔ ∃ e, g.edgeOfId? t = some e ∧ g.nodeId? (near e) = some s := by
  simp only [List.mem_filterMap, hks.mem_iff, hg.edgeOfId?_eq_some_iff, edgeId?,
    Option.map_eq_some_iff]
  constructor
  · rintro ⟨k, ⟨e, he, rfl⟩, f, hf, rfl⟩
    obtain rfl : e = f := Option.some.inj (he.symm.trans hf)
    exact ⟨e, ⟨k, he, rfl⟩, hs⟩
  · rintro ⟨e, ⟨k, he, rfl⟩, hnear⟩
    exact ⟨k, ⟨e, he, hg.nodeIds.inj hnear hs⟩, e, he, rfl⟩

theorem WellFormed.nodup_edgeIds (hg : g.WellFormed) {p : EdgeHandle → Prop} (hks : Lists ks p) :
    (ks.filterMap g.edgeId?).Nodup :=
  List.Nodup.filterMap (fun _ _ _ hk hk' => hg.edgeIds.inj hk hk') hks.nodup

theorem length_edgeIds (hks : Lists ks fun k => (g.edge? k).map near = some h) :
    (ks.filterMap g.edgeId?).length = ks.length := by
  refine List.filterMap_length_eq_length.mpr fun k hk => ?_
  rw [edgeId?, Option.isSome_map]
  exact hks.isSome hk

theorem SameContents.length_eq (hsame : SameContents g g') (hg : g.WellFormed)
    (hg' : g'.WellFormed) (near : Edge → NodeHandle)
    (hnear : ∀ e e', g.edgeContent e = g'.edgeContent e' →
      g.nodeId? (near e) = g'.nodeId? (near e'))
    {h' : NodeHandle} {ks' : List EdgeHandle}
    (hks : Lists ks fun k => (g.edge? k).map near = some h)
    (hks' : Lists ks' fun k => (g'.edge? k).map near = some h')
    (hs : g.nodeId? h = some s) (hs' : g'.nodeId? h' = some s) : ks.length = ks'.length := by
  rw [← length_edgeIds hks, ← length_edgeIds hks']
  apply List.Perm.length_eq
  refine (List.perm_ext_iff_of_nodup (hg.nodup_edgeIds hks) (hg'.nodup_edgeIds hks')).mpr ?_
  intro t
  rw [hg.mem_edgeIds_iff hks hs, hg'.mem_edgeIds_iff hks' hs']
  obtain ⟨he, he'⟩ | ⟨e, e', he, he', hcontent⟩ := map_eq_map_cases (hsame.edges t)
  · simp [he, he']
  · simp [he, he', hnear e e' hcontent]

end EdgeIds

theorem WellFormed.any_outEdges_iff_ids (hg : g.WellFormed) {h : NodeHandle} {n : Node}
    (hn : g.node? h = some n) (r : Relation) :
    (n.outEdges.any fun k => (g.edge? k).any (·.relation == r)) = true ↔
      ∃ t e, g.edgeOfId? t = some e ∧ g.nodeId? e.source = some n.id ∧
        e.relation.name = r.name := by
  have hid : g.nodeId? h = some n.id := congrArg _ hn
  simp only [hg.any_outEdges_iff hn, hg.edgeOfId?_eq_some_iff]
  constructor
  · rintro ⟨k, e, he, rfl, hname⟩
    exact ⟨e.id, e, ⟨k, he, rfl⟩, hid, hname⟩
  · rintro ⟨t, e, ⟨k, he, -⟩, hsource, hname⟩
    exact ⟨k, e, he, hg.nodeIds.inj hsource hid, hname⟩

end Graph

def Filter.custom : Filter → Bool
  | satisfies _ => true
  | _ => false

namespace Graph

variable {g g' : Graph} {n n' : Node} {s : String}

theorem SameContents.passes_eq (hsame : SameContents g g') (hg : g.WellFormed)
    (hg' : g'.WellFormed) (hn : g.nodeOfId? s = some n) (hn' : g'.nodeOfId? s = some n')
    {f : Filter} (hf : f.custom = false) : f.passes g n = f.passes g' n' := by
  obtain ⟨hlabel, hcategories⟩ : n.label = n'.label ∧ n.categories = n'.categories := by
    have hcontent := hsame.nodes s
    simpa [hn, hn', nodeContent] using hcontent
  obtain ⟨h, hh, rfl⟩ := hg.nodeOfId?_eq_some_iff.mp hn
  obtain ⟨h', hh', hid⟩ := hg'.nodeOfId?_eq_some_iff.mp hn'
  have hs : g.nodeId? h = some n.id := congrArg _ hh
  have hs' : g'.nodeId? h' = some n.id := by rw [← hid]; exact congrArg _ hh'
  have hfits := hg.nodes h n hh
  have hfits' := hg'.nodes h' n' hh'
  cases f with
  | labelContains text | labelIs label | labelMatches pattern => simp only [Filter.passes, hlabel]
  | idStartsWith text => simp only [Filter.passes, hid]
  | inCategory c => simp only [Filter.passes, Node.hasCategory, hcategories]
  | minOutDegree k =>
    have hlength := hsame.length_eq hg hg' Edge.source
      (fun _ _ heq => congrArg EdgeContent.source heq) hfits.outEdges hfits'.outEdges hs hs'
    simp only [Filter.passes, hlength]
  | minInDegree k =>
    have hlength := hsame.length_eq hg hg' Edge.destination
      (fun _ _ heq => congrArg EdgeContent.destination heq) hfits.inEdges hfits'.inEdges hs hs'
    simp only [Filter.passes, hlength]
  | hasOutRelation r =>
    rw [Bool.eq_iff_iff, Filter.passes, Filter.passes, hg.any_outEdges_iff_ids hh,
      hg'.any_outEdges_iff_ids hh', hid]
    refine exists_congr fun t => ?_
    obtain ⟨he, he'⟩ | ⟨e, e', he, he', hcontent⟩ := map_eq_map_cases (hsame.edges t)
    · simp [he, he']
    · have hsource : g.nodeId? e.source = g'.nodeId? e'.source :=
        congrArg EdgeContent.source hcontent
      have hrelation : e.relation.name = e'.relation.name :=
        congrArg EdgeContent.relation hcontent
      simp [he, he', hsource, hrelation]
  | satisfies p => cases hf

def idIfHit? (q : Query) (g : Graph) (n : Node) : Option (Option String) :=
  (Option.guard (fun n => q.accepts g n) n).map fun n => some n.id

theorem WellFormed.map_hits (hg : g.WellFormed) (q : Query) :
    (q.hits g).map g.nodeId? = g.nodes.filterMap fun p => idIfHit? q g p.2 := by
  have hids : (q.hits g).map g.nodeId? =
      (g.nodes.filter fun p => q.accepts g p.2).map fun p => some p.2.id := by
    rw [Query.hits, List.map_map]
    refine List.map_congr_left fun p hp => ?_
    exact congrArg (Option.map Node.id) (hg.mem_nodes_iff.mp (List.mem_filter.mp hp).1)
  rw [hids]
  exact map_filter_snd g.nodes (q.accepts g) fun n => some n.id

theorem SameContents.map_hits_eq (hsame : SameContents g g') (hg : g.WellFormed)
    (hg' : g'.WellFormed) {q : Query} (hq : ∀ f ∈ q.filters, f.custom = false) :
    (q.hits g).map g.nodeId? = (q.hits g').map g'.nodeId? := by
  rw [hg.map_hits, hg'.map_hits]
  refine filterMap_nodes_congr (idIfHit? q g) (idIfHit? q g') fun s => ?_
  obtain ⟨hn, hn'⟩ | ⟨n, n', hn, hn', -⟩ := map_eq_map_cases (hsame.nodes s)
  · rw [hn, hn', Option.bind_none, Option.bind_none]
  · have haccepts : q.accepts g n = q.accepts g' n' := by
      rw [Query.accepts, Query.accepts, Bool.eq_iff_iff, List.all_eq_true, List.all_eq_true]
      refine forall₂_congr fun f hf => ?_
      rw [hsame.passes_eq hg hg' hn hn' (hq f hf)]
    have hid : n.id = n'.id := (hg.id_of_nodeOfId? hn).trans (hg'.id_of_nodeOfId? hn').symm
    simp [hn, hn', idIfHit?, Option.guard, haccepts, hid]

end Graph

namespace NodeLink

variable {g g' : Graph}

theorem endpointJson_eq (g : Graph) (h : NodeHandle) :
    endpointJson g h = ((g.nodeId? h).map Json.string).getD .null := by
  unfold endpointJson Graph.nodeId?
  cases g.node? h <;> rfl

theorem link?_of_edgeOfId? (hg : g.WellFormed) {s : String} {e : Edge}
    (he : g.edgeOfId? s = some e) : link? g (fun _ => true) e = some (edgeJson g e) := by
  obtain ⟨k, hk, -⟩ := hg.edgeOfId?_eq_some_iff.mp he
  obtain ⟨m, hm⟩ := Graph.hasNode_iff.mp (hg.edges k e hk).source
  obtain ⟨n, hn⟩ := Graph.hasNode_iff.mp (hg.edges k e hk).destination
  simp [link?, Option.guard, spans, hm, hn]

theorem edgeJson_eq {e e' : Edge} (hid : e.id = e'.id)
    (hcontent : g.edgeContent e = g'.edgeContent e') : edgeJson g e = edgeJson g' e' := by
  simp only [Graph.edgeContent, EdgeContent.mk.injEq] at hcontent
  obtain ⟨hlabel, hweight, hrelation, hsource, hdestination⟩ := hcontent
  simp only [edgeJson, endpointJson_eq, hid, hlabel, hweight, hrelation, hsource, hdestination]

theorem document_eq_of_sameContents (hsame : g.SameContents g') (hg : g.WellFormed)
    (hg' : g'.WellFormed) :
    document g (fun _ => true) true = document g' (fun _ => true) true := by
  refine document_congr hg hg' (fun s => ?_) fun s => ?_
  · obtain ⟨hn, hn'⟩ | ⟨n, n', hn, hn', hcontent⟩ := map_eq_map_cases (hsame.nodes s)
    · rw [hn, hn', Option.bind_none]
    · have hid : n.id = n'.id := (hg.id_of_nodeOfId? hn).trans (hg'.id_of_nodeOfId? hn').symm
      obtain ⟨hlabel, hcategories⟩ : n.label = n'.label ∧ n.categories = n'.categories := by
        simpa [Graph.nodeContent] using hcontent
      simp [hn, hn', part?, Option.guard, nodeJson, hid, hlabel, hcategories]
  · obtain ⟨he, he'⟩ | ⟨e, e', he, he', hcontent⟩ := map_eq_map_cases (hsame.edges s)
    · rw [he, he', Option.bind_none, Option.bind_none]
    · have hid : e.id = e'.id := (hg.id_of_edgeOfId? he).trans (hg'.id_of_edgeOfId? he').symm
      rw [he, he', Option.bind_some, Option.bind_some, link?_of_edgeOfId? hg he,
        link?_of_edgeOfId? hg' he', edgeJson_eq hid hcontent]

end NodeLink

namespace Graph

/-- Graphs that hold the same, by whichever histories, have the same document; and each query that
a caller has made no test for finds the same ids in the same order, and the same count. -/
theorem sameContents_ofHistory (id id' : GraphId) (ops ops' : List Operation) :
    let g := ofHistory id ops
    let g' := ofHistory id' ops'
    SameContents g g' →
      g.nodeLink = g'.nodeLink ∧
      ∀ q : Query, (∀ f ∈ q.filters, f.custom = false) →
        (q.run g).map g.nodeId? = (q.run g').map g'.nodeId? ∧ q.count g = q.count g' ∧
          q.any g = q.any g' := by
  intro g g' hsame
  have hg : g.WellFormed := ofHistory_wellFormed id ops
  have hg' : g'.WellFormed := ofHistory_wellFormed id' ops'
  refine ⟨congrArg (Json.pretty "") (NodeLink.document_eq_of_sameContents hsame hg hg'),
    fun q hq => ?_⟩
  have hhits := hsame.map_hits_eq hg hg' hq
  have hcount : q.count g = q.count g' := by
    have hlength := congrArg List.length hhits
    rw [List.length_map, List.length_map] at hlength
    exact hlength
  refine ⟨?_, hcount, ?_⟩
  · unfold Query.run
    cases q.limit? with
    | none => exact hhits
    | some n =>
      dsimp only
      rw [List.map_take, List.map_take, hhits]
  · have hany : ∀ g : Graph, q.any g = true ↔ 0 < q.count g := by
      intro g
      simp [Query.any, Query.count, Query.hits, List.length_pos_iff_exists_mem]
    rw [Bool.eq_iff_iff, hany, hany, hcount]

/-- One graph is made straight away, the other with detours: `a` and `c` are taken out and made
again, edges come in another order, and two spellings of a relation are mixed. -/
theorem sameContents_ofHistory_detour :
    let ops : List Operation := [.putNode "a" "x", .putNode "b" "y", .putNode "c" "x",
      .updateNode ⟨1⟩ (.addCategory ⟨"t"⟩), .putEdge .default "ab" "" ⟨0⟩ ⟨1⟩,
      .putEdge (.named "r") "ac" "" ⟨0⟩ ⟨2⟩, .putEdge .default "cc" "z" ⟨2⟩ ⟨2⟩]
    let ops' : List Operation := [.putNode "c" "", .putNode "b" "y", .putNode "a" "x",
      .putEdge .default "ac" "" ⟨2⟩ ⟨0⟩, .eraseNode ⟨2⟩, .eraseNode ⟨0⟩, .putNode "c" "x",
      .putNode "a" "", .putEdge (.named "r") "ac" "" ⟨4⟩ ⟨3⟩,
      .putEdge (.named "DEFAULT") "cc" "" ⟨3⟩ ⟨3⟩, .putEdge .default "ab" "" ⟨4⟩ ⟨1⟩,
      .updateNode ⟨1⟩ (.addCategory ⟨"t"⟩), .putNode "a" "x", .updateEdge ⟨2⟩ (.relabel "z")]
    let g := ofHistory ⟨⟨0⟩⟩ ops
    let g' := ofHistory ⟨⟨1⟩⟩ ops'
    let q : Query :=
      { filters := [.labelContains "X", .minOutDegree 1, .hasOutRelation (.named "r")] }
    SameContents g g' ∧ (∀ f ∈ q.filters, f.custom = false) ∧ g.nodeLink = g'.nodeLink ∧
      (q.run g).map g.nodeId? = (q.run g').map g'.nodeId? ∧ q.count g = q.count g' ∧
      q.any g = q.any g' ∧ q.run g = [⟨0⟩] ∧ q.run g' = [⟨4⟩] ∧
      g.outEdges ⟨0⟩ = [⟨0⟩, ⟨1⟩] ∧ g'.outEdges ⟨4⟩ = [⟨1⟩, ⟨3⟩] := by
  intro ops ops' g g' q
  have hsame : SameContents g g' := by decide +kernel
  have hq : ∀ f ∈ q.filters, f.custom = false := by decide
  obtain ⟨hdocument, hqueries⟩ := sameContents_ofHistory ⟨⟨0⟩⟩ ⟨⟨1⟩⟩ ops ops' hsame
  obtain ⟨hrun, hcount, hany⟩ := hqueries q hq
  exact ⟨hsame, hq, hdocument, hrun, hcount, hany, by decide +kernel, by decide +kernel,
    by decide +kernel, by decide +kernel⟩

end Graph

end Multidigraph
