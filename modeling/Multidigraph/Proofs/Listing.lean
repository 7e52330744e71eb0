import Mathlib.Data.List.Basic
import Multidigraph.Export.NodeLink
import Multidigraph.Proofs.WellFormed

namespace Multidigraph

section Listing

variable {H H' E E' γ : Type}

def listing (ids : Registry H) (find : H → Option E) : List (H × E) :=
  ids.toList.filterMap fun (_, h) => (find h).map (h, ·)

theorem filterMap_listing (ids : Registry H) (find : H → Option E) (f : E → Option γ) :
    ((listing ids find).filterMap fun p => f p.2) =
      (ids.filterMap fun _ h => (find h).bind f).toList.map Prod.snd := by
  simp only [listing, List.filterMap_filterMap, Std.ExtTreeMap.toList_filterMap, List.map_filterMap,
    Option.bind_map, Option.map_map, Function.comp_def, Option.map_id']

theorem filterMap_listing_congr {ids : Registry H} {ids' : Registry H'} {find : H → Option E}
    {find' : H' → Option E'} {f : E → Option γ} {f' : E' → Option γ}
    (h : ∀ s : String, (ids[s]?.bind find).bind f = (ids'[s]?.bind find').bind f') :
    ((listing ids find).filterMap fun p => f p.2) =
      (listing ids' find').filterMap fun p => f' p.2 := by
  rw [filterMap_listing, filterMap_listing]
  congr 2
  apply Std.ExtTreeMap.ext_getElem?
  intro s
  rw [Std.ExtTreeMap.getElem?_filterMap', Std.ExtTreeMap.getElem?_filterMap', ← Option.bind_assoc,
    ← Option.bind_assoc]
  exact h s

theorem mem_listing_iff {ids : Registry H} {find : H → Option E} {idOf : E → String}
    (hnames : Names (fun s => ids[s]?) fun h => (find h).map idOf) {h : H} {e : E} :
    (h, e) ∈ listing ids find ↔ find h = some e := by
  simp only [listing, List.mem_filterMap, Option.map_eq_some_iff, Prod.mk.injEq]
  constructor
  · rintro ⟨_, -, d, hd, rfl, rfl⟩
    exact hd
  · intro he
    have hid : ids[idOf e]? = some h := (hnames (idOf e) h).mpr (congrArg _ he)
    exact ⟨(idOf e, h), Std.ExtTreeMap.mem_toList_iff_getElem?_eq_some.mpr hid, e, he, rfl, rfl⟩

theorem map_fst_listing {ids : Registry H} {find : H → Option E} {idOf : E → String}
    (hnames : Names (fun s => ids[s]?) fun h => (find h).map idOf) :
    (listing ids find).map Prod.fst = ids.toList.map Prod.snd := by
  rw [listing, List.map_filterMap, ← List.filterMap_eq_map]
  refine List.filterMap_congr fun p hp => ?_
  have hid : ids[p.1]? = some p.2 := Std.ExtTreeMap.mem_toList_iff_getElem?_eq_some.mp hp
  obtain ⟨e, he, -⟩ := Option.map_eq_some_iff.mp ((hnames p.1 p.2).mp hid)
  simp [he]

theorem length_listing {ids : Registry H} {find : H → Option E} {idOf : E → String}
    (hnames : Names (fun s => ids[s]?) fun h => (find h).map idOf) :
    (listing ids find).length = ids.size := by
  rw [← List.length_map Prod.fst, map_fst_listing hnames, List.length_map,
    Std.ExtTreeMap.length_toList]

theorem nodup_map_fst_listing {ids : Registry H} {find : H → Option E} {idOf : E → String}
    (hnames : Names (fun s => ids[s]?) fun h => (find h).map idOf) :
    ((listing ids find).map Prod.fst).Nodup := by
  rw [map_fst_listing hnames]
  refine List.pairwise_map.mpr (ids.distinct_keys_toList.imp_of_mem ?_)
  rintro ⟨s, h⟩ ⟨t, k⟩ hs ht hne rfl
  have hs' := (hnames s h).mp (Std.ExtTreeMap.mem_toList_iff_getElem?_eq_some.mp hs)
  have ht' := (hnames t h).mp (Std.ExtTreeMap.mem_toList_iff_getElem?_eq_some.mp ht)
  obtain rfl : s = t := Option.some.inj (hs'.symm.trans ht')
  exact hne Std.ReflCmp.compare_self

theorem map_filter_snd (ps : List (H × E)) (q : E → Bool) (f : E → γ) :
    ((ps.filter fun p => q p.2).map fun p => f p.2) =
      ps.filterMap fun p => (Option.guard (fun e => q e) p.2).map f := by
  rw [← List.filterMap_eq_filter, List.map_filterMap]
  congr 1
  funext p
  cases hq : q p.2 <;> simp [Option.guard, hq]

end Listing

namespace Graph

variable {g g' : Graph} {γ : Type}

theorem filterMap_nodes_congr (f f' : Node → Option γ)
    (h : ∀ s, (g.nodeOfId? s).bind f = (g'.nodeOfId? s).bind f') :
    (g.nodes.filterMap fun p => f p.2) = g'.nodes.filterMap fun p => f' p.2 :=
  filterMap_listing_congr h

theorem filterMap_edges_congr (f f' : Edge → Option γ)
    (h : ∀ s, (g.edgeOfId? s).bind f = (g'.edgeOfId? s).bind f') :
    (g.edges.filterMap fun p => f p.2) = g'.edges.filterMap fun p => f' p.2 :=
  filterMap_listing_congr h

theorem WellFormed.mem_nodes_iff (hg : g.WellFormed) {h : NodeHandle} {n : Node} :
    (h, n) ∈ g.nodes ↔ g.node? h = some n :=
  mem_listing_iff hg.nodeIds

theorem WellFormed.mem_edges_iff (hg : g.WellFormed) {k : EdgeHandle} {e : Edge} :
    (k, e) ∈ g.edges ↔ g.edge? k = some e :=
  mem_listing_iff hg.edgeIds

theorem WellFormed.nodeOfId?_eq_some_iff (hg : g.WellFormed) {s : String} {n : Node} :
    g.nodeOfId? s = some n ↔ ∃ h, g.node? h = some n ∧ n.id = s :=
  hg.nodeIds.bind_eq_some_iff

theorem WellFormed.edgeOfId?_eq_some_iff (hg : g.WellFormed) {s : String} {e : Edge} :
    g.edgeOfId? s = some e ↔ ∃ k, g.edge? k = some e ∧ e.id = s :=
  hg.edgeIds.bind_eq_some_iff

theorem WellFormed.id_of_nodeOfId? (hg : g.WellFormed) {s : String} {n : Node}
    (hn : g.nodeOfId? s = some n) : n.id = s := by
  obtain ⟨h, -, hid⟩ := hg.nodeOfId?_eq_some_iff.mp hn
  exact hid

theorem WellFormed.id_of_edgeOfId? (hg : g.WellFormed) {s : String} {e : Edge}
    (he : g.edgeOfId? s = some e) : e.id = s := by
  obtain ⟨k, -, hid⟩ := hg.edgeOfId?_eq_some_iff.mp he
  exact hid

end Graph

namespace NodeLink

variable {g g' : Graph} {keep keep' : Node → Bool}

def part? (keep : Node → Bool) (n : Node) : Option Json :=
  (Option.guard (fun n => keep n) n).map nodeJson

def spans (g : Graph) (keep : Node → Bool) (e : Edge) : Bool :=
  (g.node? e.source).any keep && (g.node? e.destination).any keep

def link? (g : Graph) (keep : Node → Bool) (e : Edge) : Option Json :=
  (Option.guard (fun e => spans g keep e) e).map (edgeJson g)

/-- The document, with no set of the nodes that are kept. -/
theorem document_eq (hg : g.WellFormed) (keep : Node → Bool) :
    document g keep true = .object [
      ("links", .array (g.edges.filterMap fun p => link? g keep p.2)),
      ("nodes", .array (g.nodes.filterMap fun p => part? keep p.2))] := by
  let nodes := g.nodes.filter fun p => keep p.2
  let kept := Std.ExtTreeSet.ofList (nodes.map Prod.fst)
  have hkept : ∀ h, kept.contains h = (g.node? h).any keep := by
    intro h
    rw [Std.ExtTreeSet.contains_ofList, Bool.eq_iff_iff, List.contains_iff_mem,
      Option.any_eq_true]
    simp [nodes, hg.mem_nodes_iff]
  have hlinks : ((g.edges.filter fun p => kept.contains p.2.source &&
      kept.contains p.2.destination).map fun p => edgeJson g p.2) =
        g.edges.filterMap fun p => link? g keep p.2 := by
    simp only [hkept]
    exact map_filter_snd g.edges (spans g keep) (edgeJson g)
  have hnodes : (nodes.map fun p => nodeJson p.2) = g.nodes.filterMap fun p => part? keep p.2 :=
    map_filter_snd g.nodes _ _
  rw [← hlinks, ← hnodes]
  rfl

theorem document_congr (hg : g.WellFormed) (hg' : g'.WellFormed)
    (hnodes : ∀ s, (g.nodeOfId? s).bind (part? keep) = (g'.nodeOfId? s).bind (part? keep'))
    (hedges : ∀ s, (g.edgeOfId? s).bind (link? g keep) =
      (g'.edgeOfId? s).bind (link? g' keep')) :
    document g keep true = document g' keep' true := by
  rw [document_eq hg, document_eq hg', Graph.filterMap_nodes_congr _ _ hnodes,
    Graph.filterMap_edges_congr _ _ hedges]

end NodeLink

end Multidigraph
