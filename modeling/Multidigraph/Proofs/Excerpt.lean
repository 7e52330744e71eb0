import Multidigraph.Proofs.Listing
import Multidigraph.Proofs.Removal

namespace Multidigraph

def Json.member? (key : String) : Json → Option Json
  | object members => members.lookup key
  | _ => none

namespace NodeLink

variable (g : Graph) (n : Node) (e : Edge)

theorem member?_nodeJson_id : (nodeJson n).member? "id" = some (.string n.id) := by
  simp [nodeJson, Json.member?, List.lookup_cons]

theorem member?_edgeJson_id : (edgeJson g e).member? "id" = some (.string e.id) := by
  simp [edgeJson, Json.member?]

theorem member?_edgeJson_source :
    (edgeJson g e).member? "source" = some (endpointJson g e.source) := by
  simp [edgeJson, Json.member?, List.lookup_cons]

theorem member?_edgeJson_target :
    (edgeJson g e).member? "target" = some (endpointJson g e.destination) := by
  simp [edgeJson, Json.member?, List.lookup_cons]

variable {g n e} {keep : Node → Bool}

theorem spans_iff : spans g keep e = true ↔
    (∃ m, g.node? e.source = some m ∧ keep m = true) ∧
      ∃ n, g.node? e.destination = some n ∧ keep n = true := by
  simp [spans, Option.any_eq_true]

theorem mem_parts_iff (hg : g.WellFormed) {j : Json} :
    j ∈ g.nodes.filterMap (fun p => part? keep p.2) ↔
      ∃ h n, g.node? h = some n ∧ keep n = true ∧ nodeJson n = j := by
  simp [List.mem_filterMap, part?, Option.guard, hg.mem_nodes_iff]

theorem mem_links_iff (hg : g.WellFormed) {j : Json} :
    j ∈ g.edges.filterMap (fun p => link? g keep p.2) ↔
      ∃ k e, g.edge? k = some e ∧ spans g keep e = true ∧ edgeJson g e = j := by
  simp [List.mem_filterMap, link?, Option.guard, hg.mem_edges_iff]

end NodeLink

namespace Graph

open NodeLink

variable {g : Graph} {keep : Node → Bool} {ns : Finset NodeHandle}

section Without

variable (hns : ∀ h, h ∈ ns ↔ ∃ n, g.node? h = some n ∧ keep n = false)

include hns

theorem notMem_iff_of_node? {h : NodeHandle} {n : Node} (hn : g.node? h = some n) :
    h ∉ ns ↔ keep n = true := by
  simp [hns, hn]

theorem WellFormed.spans_eq_stays (hg : g.WellFormed) {k : EdgeHandle} {e : Edge}
    (he : g.edge? k = some e) : spans g keep e = g.stays ns ∅ k := by
  obtain ⟨m, hm⟩ := hasNode_iff.mp (hg.edges k e he).source
  obtain ⟨n, hn⟩ := hasNode_iff.mp (hg.edges k e he).destination
  rw [Bool.eq_iff_iff, stays_iff]
  simp [spans, he, hm, hn, notMem_iff_of_node? hns hm, notMem_iff_of_node? hns hn]

theorem WellFormed.part?_without (hg : g.WellFormed) (s : String) :
    ((g.without ns ∅).nodeOfId? s).bind (part? fun _ => true) =
      (g.nodeOfId? s).bind (part? keep) := by
  rw [nodeOfId?, nodeOfId?, nodeHandle?_without]
  cases hs : g.nodeHandle? s with
  | none => rfl
  | some h =>
    obtain ⟨n, hn, -⟩ := Option.map_eq_some_iff.mp ((hg.nodeIds s h).mp hs)
    by_cases hh : h ∈ ns
    · have hkeep : keep n = false := by simpa [hh] using notMem_iff_of_node? hns hn
      simp [hh, hn, hkeep, part?, Option.guard, Option.filter_some]
    · have hkeep : keep n = true := (notMem_iff_of_node? hns hn).mp hh
      simp [hh, hn, hkeep, part?, Option.guard, Option.filter_some, node?_without, nodeJson]

theorem WellFormed.link?_without (hg : g.WellFormed) (s : String) :
    ((g.without ns ∅).edgeOfId? s).bind (link? (g.without ns ∅) fun _ => true) =
      (g.edgeOfId? s).bind (link? g keep) := by
  rw [edgeOfId?, edgeOfId?, edgeHandle?_without]
  cases hs : g.edgeHandle? s with
  | none => rfl
  | some k =>
    obtain ⟨e, he, -⟩ := Option.map_eq_some_iff.mp ((hg.edgeIds s k).mp hs)
    have hspans := hg.spans_eq_stays hns he
    cases hk : g.stays ns ∅ k with
    | false => simp [hk, he, hspans, link?, Option.guard, Option.filter_some]
    | true =>
      obtain ⟨f, hf, -, hsource, hdestination⟩ := stays_iff.mp hk
      obtain rfl : f = e := Option.some.inj (hf.symm.trans he)
      obtain ⟨m, hm⟩ := hasNode_iff.mp (hg.edges k f hf).source
      obtain ⟨n, hn⟩ := hasNode_iff.mp (hg.edges k f hf).destination
      have hspans' : spans (g.without ns ∅) (fun _ => true) f = true := by
        simp [spans, node?_without, hsource, hdestination, hm, hn]
      have hjson : edgeJson (g.without ns ∅) f = edgeJson g f := by
        simp [edgeJson, endpointJson, node?_without, hsource, hdestination, hm, hn]
      simp [hk, he, hspans, hspans', hjson, link?, Option.guard, edge?_without, Option.filter_some]

end Without

theorem WellFormed.document_run (hg : g.WellFormed) {hs : List NodeHandle} (hnodup : hs.Nodup)
    (hmem : ∀ h, h ∈ hs ↔ ∃ n, g.node? h = some n ∧ keep n = false) :
    document (Operation.run (hs.map .eraseNode) g).2 (fun _ => true) true =
      document g keep true := by
  have hrun : (Operation.run (hs.map .eraseNode) g).2 = g.without hs.toFinset ∅ := by
    have hlive : ∀ h, Removal.node h ∈ hs.map Removal.node → g.hasNode h = true := by
      intro h hh
      obtain ⟨n, hn, -⟩ := (hmem h).mp (by simpa using hh)
      exact hasNode_iff.mpr ⟨n, hn⟩
    have hremovals := hg.run_removals (hnodup.map fun _ _ heq => Removal.node.inj heq) hlive
      (by simp)
    have hnodes : Removal.nodesOf (hs.map Removal.node) = hs.toFinset := by
      ext h
      simp
    have hedges : Removal.edgesOf (hs.map Removal.node) = ∅ := by
      ext k
      simp
    rw [hnodes, hedges, List.map_map] at hremovals
    exact hremovals
  have hns : ∀ h, h ∈ hs.toFinset ↔ ∃ n, g.node? h = some n ∧ keep n = false := by
    intro h
    rw [List.mem_toFinset, hmem]
  rw [hrun]
  exact document_congr (hg.without _ _) hg (hg.part?_without hns) (hg.link?_without hns)

/-- The document of a part of a graph is that of what is left when the other nodes are taken out, in
whichever order. So each link in it leads from a node to a node of the document, and it has a link
for an edge exactly if both endpoints are kept. -/
theorem nodeLinkOf_ofHistory (id : GraphId) (ops : List Operation) (keep : Node → Bool)
    (hs : List NodeHandle) :
    let g := ofHistory id ops
    hs.Nodup → (∀ h, h ∈ hs ↔ ∃ n, g.node? h = some n ∧ keep n = false) →
      g.nodeLinkOf keep true = (Operation.run (hs.map .eraseNode) g).2.nodeLink ∧
      ∃ links nodes,
        document g keep true = .object [("links", .array links), ("nodes", .array nodes)] ∧
        (∀ l ∈ links, ∃ s t, l.member? "source" = some (.string s) ∧
          l.member? "target" = some (.string t) ∧
          (∃ n ∈ nodes, n.member? "id" = some (.string s)) ∧
          ∃ n ∈ nodes, n.member? "id" = some (.string t)) ∧
        ∀ k e m n, g.edge? k = some e → g.node? e.source = some m →
          g.node? e.destination = some n →
            ((∃ l ∈ links, l.member? "id" = some (.string e.id)) ↔
              keep m = true ∧ keep n = true) := by
  intro g hnodup hmem
  have hg : g.WellFormed := ofHistory_wellFormed id ops
  refine ⟨congrArg (Json.pretty "") (hg.document_run hnodup hmem).symm, _, _, document_eq hg keep,
    ?_, ?_⟩
  · intro l hl
    obtain ⟨k, e, he, hspans, rfl⟩ := (mem_links_iff hg).mp hl
    obtain ⟨⟨m, hm, hkeep⟩, n, hn, hkeep'⟩ := spans_iff.mp hspans
    refine ⟨m.id, n.id, ?_, ?_, ?_, ?_⟩
    · rw [member?_edgeJson_source, endpointJson, hm]
    · rw [member?_edgeJson_target, endpointJson, hn]
    · exact ⟨nodeJson m, (mem_parts_iff hg).mpr ⟨_, m, hm, hkeep, rfl⟩, member?_nodeJson_id m⟩
    · exact ⟨nodeJson n, (mem_parts_iff hg).mpr ⟨_, n, hn, hkeep', rfl⟩, member?_nodeJson_id n⟩
  · intro k e m n he hm hn
    have hspans : spans g keep e = true ↔ keep m = true ∧ keep n = true := by
      simp [spans, hm, hn]
    rw [← hspans]
    constructor
    · rintro ⟨l, hl, hid⟩
      obtain ⟨k', e', he', hspans', rfl⟩ := (mem_links_iff hg).mp hl
      rw [member?_edgeJson_id] at hid
      have hthis : g.edgeOfId? e.id = some e := hg.edgeOfId?_eq_some_iff.mpr ⟨k, he, rfl⟩
      have hthat : g.edgeOfId? e.id = some e' :=
        hg.edgeOfId?_eq_some_iff.mpr ⟨k', he', by simpa using hid⟩
      obtain rfl : e' = e := Option.some.inj (hthat.symm.trans hthis)
      exact hspans'
    · intro h
      exact ⟨edgeJson g e, (mem_links_iff hg).mpr ⟨k, e, he, h, rfl⟩, member?_edgeJson_id g e⟩

/-- The nodes that are not kept have a loop, a pair of parallel edges and edges to both others; they
are taken out from the last to the first. -/
theorem nodeLinkOf_ofHistory_cut :
    let ops : List Operation := [.putNode "a" "x", .putNode "b" "y", .putNode "c" "x",
      .putNode "d" "y", .putEdge .default "aa" "" ⟨0⟩ ⟨0⟩, .putEdge .default "ab" "" ⟨0⟩ ⟨1⟩,
      .putEdge .default "bb" "" ⟨1⟩ ⟨1⟩, .putEdge .default "bd" "" ⟨1⟩ ⟨3⟩,
      .putEdge .default "bd2" "" ⟨1⟩ ⟨3⟩, .putEdge .default "ca" "" ⟨2⟩ ⟨0⟩,
      .putEdge .default "dc" "" ⟨3⟩ ⟨2⟩]
    let g := ofHistory ⟨⟨0⟩⟩ ops
    let keep (n : Node) : Bool := n.label = "x"
    let hs : List NodeHandle := [⟨3⟩, ⟨1⟩]
    hs.Nodup ∧ (∀ h, h ∈ hs ↔ ∃ n, g.node? h = some n ∧ keep n = false) ∧
      g.nodeLinkOf keep true = (Operation.run [.eraseNode ⟨3⟩, .eraseNode ⟨1⟩] g).2.nodeLink ∧
      (∃ links nodes,
        document g keep true = .object [("links", .array links), ("nodes", .array nodes)] ∧
        (∃ l ∈ links, l.member? "id" = some (.string "ca")) ∧
        ¬ ∃ l ∈ links, l.member? "id" = some (.string "ab")) ∧
      g.nodeLinkOf keep true =
        "\x7b\n  \"links\": [\n" ++
          "    \x7b\n      \"id\": \"aa\",\n      \"label\": \"\",\n" ++
          "      \"source\": \"a\",\n      \"target\": \"a\",\n" ++
          "      \"type\": \"DEFAULT\",\n      \"weight\": 1.0\n    \x7d,\n" ++
          "    \x7b\n      \"id\": \"ca\",\n      \"label\": \"\",\n" ++
          "      \"source\": \"c\",\n      \"target\": \"a\",\n" ++
          "      \"type\": \"DEFAULT\",\n      \"weight\": 1.0\n    \x7d\n  ],\n" ++
          "  \"nodes\": [\n    \x7b\n      \"categories\": [],\n" ++
          "      \"id\": \"a\",\n      \"label\": \"x\"\n    \x7d,\n" ++
          "    \x7b\n      \"categories\": [],\n" ++
          "      \"id\": \"c\",\n      \"label\": \"x\"\n    \x7d\n  ]\n\x7d" := by
  intro ops g keep hs
  have hthere : ∀ i < g.nodeSlots.size,
      (⟨i⟩ ∈ hs ↔ (g.node? ⟨i⟩).any (fun n => !keep n) = true) := by decide +kernel
  have hissued : ∀ h ∈ hs, h.slot < g.nodeSlots.size := by decide +kernel
  have hmem : ∀ h, h ∈ hs ↔ ∃ n, g.node? h = some n ∧ keep n = false := by
    intro h
    constructor
    · intro hh
      obtain ⟨n, hn, hkeep⟩ := (Option.any_eq_true _ _).mp ((hthere h.slot (hissued h hh)).mp hh)
      exact ⟨n, hn, by simpa using hkeep⟩
    · rintro ⟨n, hn, hkeep⟩
      refine (hthere h.slot (slot_lt_of_node? hn)).mpr ((Option.any_eq_true _ _).mpr ⟨n, hn, ?_⟩)
      rw [hkeep]
      rfl
  obtain ⟨hsame, links, nodes, hdocument, -, hlinks⟩ :=
    nodeLinkOf_ofHistory ⟨⟨0⟩⟩ ops keep hs (by decide) hmem
  have hca := hlinks ⟨5⟩ ⟨"ca", "", .one, .default, ⟨2⟩, ⟨0⟩, ⟨⟨0⟩⟩⟩ _ _ rfl rfl rfl
  have hab := hlinks ⟨1⟩ ⟨"ab", "", .one, .default, ⟨0⟩, ⟨1⟩, ⟨⟨0⟩⟩⟩ _ _ rfl rfl rfl
  have hcut : ¬ ∃ l ∈ links, l.member? "id" = some (.string "ab") := by
    rw [hab]
    decide
  exact ⟨by decide, hmem, hsame, ⟨links, nodes, hdocument, hca.mpr (by decide), hcut⟩,
    by decide +kernel⟩

end Graph

end Multidigraph
