import Mathlib.Data.Finset.Basic
import Multidigraph.Proofs.History

namespace Multidigraph

namespace Arena

variable {α : Type} {a b : Arena α}

def filterMap (f : Nat → α → Option α) (a : Arena α) : Arena α :=
  ⟨a.slots.mapIdx fun i slot => slot.bind (f i)⟩

@[simp] theorem size_filterMap (f : Nat → α → Option α) (a : Arena α) :
    (a.filterMap f).size = a.size := by
  simp [filterMap, size]

theorem get?_filterMap (f : Nat → α → Option α) (a : Arena α) (i : Nat) :
    (a.filterMap f).get? i = (a.get? i).bind (f i) := by
  simp only [get?, filterMap, Array.getElem?_mapIdx]
  cases a.slots[i]? with
  | none => rfl
  | some slot => rfl

end Arena

theorem Lists.unique {p : EdgeHandle → Prop} {ks ks' : List EdgeHandle} (h : Lists ks p)
    (h' : Lists ks' p) : ks = ks' := by
  have hperm : ks.Perm ks' :=
    (List.perm_ext_iff_of_nodup h.nodup h'.nodup).mpr
      fun k => (h.mem_iff k).trans (h'.mem_iff k).symm
  exact hperm.eq_of_pairwise (fun a b _ _ hab hba => absurd hba (Nat.lt_asymm hab))
    h.increasing h'.increasing

def Node.bare (n : Node) : Node := { n with outEdges := [], inEdges := [] }

theorem Node.ext_bare {m n : Node} (h : m.bare = n.bare) (hout : m.outEdges = n.outEdges)
    (hin : m.inEdges = n.inEdges) : m = n := by
  obtain ⟨id, label, outEdges, inEdges, categories, graph⟩ := m
  simp only [bare, mk.injEq, true_and] at h
  obtain ⟨rfl, rfl, rfl, rfl⟩ := h
  simp only at hout hin
  rw [hout, hin]

namespace Graph

variable {g g' : Graph} {ns ns' : Finset NodeHandle} {es es' : Finset EdgeHandle}

theorem ext_lookups (hid : g.id = g'.id) (hnodes : g.nodeSlots.size = g'.nodeSlots.size)
    (hedges : g.edgeSlots.size = g'.edgeSlots.size) (hn : ∀ h, g.node? h = g'.node? h)
    (he : ∀ k, g.edge? k = g'.edge? k) (hni : ∀ s, g.nodeHandle? s = g'.nodeHandle? s)
    (hei : ∀ s, g.edgeHandle? s = g'.edgeHandle? s) : g = g' := by
  have hnodeSlots := Arena.ext_get? hnodes fun i => hn ⟨i⟩
  have hedgeSlots := Arena.ext_get? hedges fun i => he ⟨i⟩
  have hnodeIds := Std.ExtTreeMap.ext_getElem? hni
  have hedgeIds := Std.ExtTreeMap.ext_getElem? hei
  obtain ⟨id, nodeSlots, edgeSlots, nodeIds, edgeIds⟩ := g
  dsimp only at hid hnodeSlots hedgeSlots hnodeIds hedgeIds
  subst hid hnodeSlots hedgeSlots hnodeIds hedgeIds
  rfl

/-- A well-formed graph is known by its edges and by its nodes but for their edges; registries and
edge lists follow. -/
theorem WellFormed.ext (hg : g.WellFormed) (hg' : g'.WellFormed) (hid : g.id = g'.id)
    (hnodes : g.nodeSlots.size = g'.nodeSlots.size) (hedges : g.edgeSlots.size = g'.edgeSlots.size)
    (hn : ∀ h, (g.node? h).map Node.bare = (g'.node? h).map Node.bare)
    (he : ∀ k, g.edge? k = g'.edge? k) : g = g' := by
  refine ext_lookups hid hnodes hedges (fun h => ?_) he (fun s => ?_) fun s => ?_
  · have hbare := hn h
    cases hm : g.node? h with
    | none =>
      rw [hm] at hbare
      exact (Option.map_eq_none_iff.mp hbare.symm).symm
    | some m =>
      rw [hm] at hbare
      obtain ⟨n, hn, hnm⟩ := Option.map_eq_some_iff.mp hbare.symm
      have hmfits := hg.nodes h m hm
      have hnfits := hg'.nodes h n hn
      rw [hn, Node.ext_bare hnm (hnfits.outEdges.unique (hmfits.outEdges.congr fun k => ?_))
        (hnfits.inEdges.unique (hmfits.inEdges.congr fun k => ?_))]
      · rw [source?, source?, he]
      · rw [destination?, destination?, he]
  · ext h
    have hnodeId : ∀ g : Graph, g.nodeId? h = ((g.node? h).map Node.bare).map Node.id := by
      intro g
      rw [nodeId?, Option.map_map]
      rfl
    rw [hg.nodeIds, hg'.nodeIds, hnodeId, hnodeId, hn]
  · ext k
    rw [hg.edgeIds, hg'.edgeIds, edgeId?, edgeId?, he]

def stays (g : Graph) (ns : Finset NodeHandle) (es : Finset EdgeHandle) (k : EdgeHandle) : Bool :=
  (g.edge? k).any fun e => k ∉ es && e.source ∉ ns && e.destination ∉ ns

/-- A graph without some of its nodes and edges. The edges at the nodes go as well. What stays keeps
its slot and all that it has, save that the nodes no longer list the edges that go. -/
def without (g : Graph) (ns : Finset NodeHandle) (es : Finset EdgeHandle) : Graph where
  id := g.id
  nodeSlots := g.nodeSlots.filterMap fun i n =>
    if ⟨i⟩ ∈ ns then none
    else some { n with
      outEdges := n.outEdges.filter (g.stays ns es)
      inEdges := n.inEdges.filter (g.stays ns es) }
  edgeSlots := g.edgeSlots.filterMap fun i e => if g.stays ns es ⟨i⟩ then some e else none
  nodeIds := g.nodeIds.filter fun _ h => h ∉ ns
  edgeIds := g.edgeIds.filter fun _ k => g.stays ns es k

theorem stays_iff {k : EdgeHandle} :
    g.stays ns es k = true ↔
      ∃ e, g.edge? k = some e ∧ k ∉ es ∧ e.source ∉ ns ∧ e.destination ∉ ns := by
  simp [stays, Option.any_eq_true, and_assoc]

section Lookup

variable (g ns es)

theorem node?_without (h : NodeHandle) :
    (g.without ns es).node? h =
      if h ∈ ns then none
      else (g.node? h).map fun n =>
        { n with
          outEdges := n.outEdges.filter (g.stays ns es)
          inEdges := n.inEdges.filter (g.stays ns es) } := by
  simp only [without, node?, Arena.get?_filterMap]
  cases g.nodeSlots.get? h.slot <;> split <;> rfl

theorem edge?_without (k : EdgeHandle) :
    (g.without ns es).edge? k = if g.stays ns es k then g.edge? k else none := by
  simp only [without, edge?, Arena.get?_filterMap]
  cases g.edgeSlots.get? k.slot <;> split <;> rfl

theorem nodeHandle?_without (s : String) :
    (g.without ns es).nodeHandle? s = (g.nodeHandle? s).filter (· ∉ ns) := by
  simp only [without, nodeHandle?, Std.ExtTreeMap.getElem?_filter']

theorem edgeHandle?_without (s : String) :
    (g.without ns es).edgeHandle? s = (g.edgeHandle? s).filter (g.stays ns es) := by
  simp only [without, edgeHandle?, Std.ExtTreeMap.getElem?_filter']

@[simp] theorem id_without : (g.without ns es).id = g.id := rfl

@[simp] theorem size_nodeSlots_without :
    (g.without ns es).nodeSlots.size = g.nodeSlots.size := by
  simp [without]

@[simp] theorem size_edgeSlots_without :
    (g.without ns es).edgeSlots.size = g.edgeSlots.size := by
  simp [without]

end Lookup

section Remainders

theorem stays_without (k : EdgeHandle) :
    (g.without ns es).stays ns' es' k = g.stays (ns ∪ ns') (es ∪ es') k := by
  rw [Bool.eq_iff_iff, stays_iff, stays_iff]
  simp only [edge?_without, Finset.notMem_union]
  constructor
  · rintro ⟨e, he, hk, hs, hd⟩
    split at he
    · next hstays =>
      obtain ⟨f, hf, hk', hs', hd'⟩ := stays_iff.mp hstays
      obtain rfl : f = e := Option.some.inj (hf.symm.trans he)
      exact ⟨f, hf, ⟨hk', hk⟩, ⟨hs', hs⟩, hd', hd⟩
    · cases he
  · rintro ⟨e, he, ⟨hk', hk⟩, ⟨hs', hs⟩, hd', hd⟩
    exact ⟨e, by rw [if_pos (stays_iff.mpr ⟨e, he, hk', hs', hd'⟩), he], hk, hs, hd⟩

theorem stays_of_stays_union {k : EdgeHandle} (h : g.stays (ns ∪ ns') (es ∪ es') k = true) :
    g.stays ns es k = true := by
  obtain ⟨e, he, hk, hs, hd⟩ := stays_iff.mp h
  simp only [Finset.notMem_union] at hk hs hd
  exact stays_iff.mpr ⟨e, he, hk.1, hs.1, hd.1⟩

theorem stays_and_stays (k : EdgeHandle) :
    (g.stays ns es k && (g.without ns es).stays ns' es' k) = g.stays (ns ∪ ns') (es ∪ es') k := by
  rw [stays_without, Bool.and_eq_right_iff_imp]
  exact stays_of_stays_union

theorem without_without (g : Graph) (ns ns' : Finset NodeHandle) (es es' : Finset EdgeHandle) :
    (g.without ns es).without ns' es' = g.without (ns ∪ ns') (es ∪ es') := by
  refine ext_lookups rfl (by simp) (by simp) (fun h => ?_) (fun k => ?_) (fun s => ?_) fun s => ?_
  · simp only [node?_without, Finset.mem_union]
    by_cases hns : h ∈ ns <;> by_cases hns' : h ∈ ns' <;>
      simp [hns, hns', Function.comp_def, Bool.and_comm, stays_and_stays]
  · simp only [edge?_without, stays_without]
    split
    · next hstays => rw [if_pos (stays_of_stays_union hstays)]
    · rfl
  · simp only [nodeHandle?_without, Option.filter_filter, Finset.notMem_union, Bool.decide_and]
  · simp only [edgeHandle?_without, Option.filter_filter, stays_and_stays]

theorem without_congr (h : ∀ k, g.stays ns es k = g.stays ns es' k) :
    g.without ns es = g.without ns es' := by
  have hstays : g.stays ns es = g.stays ns es' := funext h
  simp only [without, hstays]

end Remainders

section WellFormed

theorem WellFormed.without (hg : g.WellFormed) (ns : Finset NodeHandle) (es : Finset EdgeHandle) :
    (g.without ns es).WellFormed := by
  have hlists : ∀ {f : EdgeHandle → Option NodeHandle} {h : NodeHandle} {ks : List EdgeHandle},
      Lists ks (fun k => f k = some h) →
      Lists (ks.filter (g.stays ns es)) fun k => (if g.stays ns es k then f k else none) = some h :=
    fun hks => ⟨hks.increasing.filter _, fun k => by
      cases hk : g.stays ns es k <;> simp [hks.mem_iff, hk]⟩
  have hlive : ∀ h, h ∉ ns → g.hasNode h = true → (g.without ns es).hasNode h = true := by
    intro h hh hlive
    rw [hasNode, node?_without, if_neg hh, Option.isSome_map]
    exact hlive
  constructor
  case nodeIds =>
    intro s h
    rw [nodeHandle?_without, nodeId?, node?_without, Option.filter_eq_some_iff, hg.nodeIds s h]
    by_cases hh : h ∈ ns <;> simp [hh, nodeId?, Function.comp_def]
  case edgeIds =>
    intro s k
    rw [edgeHandle?_without, edgeId?, edge?_without, Option.filter_eq_some_iff, hg.edgeIds s k]
    cases hk : g.stays ns es k <;> simp [edgeId?]
  case nodes =>
    intro h m hm
    rw [node?_without] at hm
    split at hm
    · cases hm
    · obtain ⟨n, hn, rfl⟩ := Option.map_eq_some_iff.mp hm
      obtain ⟨hout, hin, hcat, hown⟩ := hg.nodes h n hn
      refine ⟨(hlists hout).congr fun k => ?_, (hlists hin).congr fun k => ?_, hcat, hown⟩
      · rw [source?, source?, edge?_without]
        split <;> rfl
      · rw [destination?, destination?, edge?_without]
        split <;> rfl
  case edges =>
    intro k e he
    rw [edge?_without] at he
    split at he
    · next hk =>
      obtain ⟨f, hf, -, hs, hd⟩ := stays_iff.mp hk
      obtain rfl : f = e := Option.some.inj (hf.symm.trans he)
      obtain ⟨hsource, hdestination, hown⟩ := hg.edges k f hf
      exact ⟨hlive _ hs hsource, hlive _ hd hdestination, hown⟩
    · cases he

theorem WellFormed.eq_without (hg : g.WellFormed) (hg' : g'.WellFormed) (hid : g'.id = g.id)
    (hnodes : g'.nodeSlots.size = g.nodeSlots.size) (hedges : g'.edgeSlots.size = g.edgeSlots.size)
    (hn : ∀ h, (g'.node? h).map Node.bare = if h ∈ ns then none else (g.node? h).map Node.bare)
    (he : ∀ k, g'.edge? k = if g.stays ns es k then g.edge? k else none) :
    g' = g.without ns es := by
  refine hg'.ext (hg.without ns es) hid (by simpa using hnodes) (by simpa using hedges)
    (fun h => ?_) fun k => ?_
  · rw [hn, node?_without]
    split
    · rfl
    · rw [Option.map_map]
      rfl
  · rw [he, edge?_without]

theorem WellFormed.without_empty (hg : g.WellFormed) : g.without ∅ ∅ = g := by
  refine (hg.eq_without hg rfl rfl rfl (fun h => by simp) fun k => ?_).symm
  cases he : g.edge? k <;> simp [stays, he]

end WellFormed

end Graph

end Multidigraph
