import Multidigraph.Proofs.Lookup

namespace Multidigraph

section Registry

/-- Whether a registry finds exactly the handles of the entities that carry an id. -/
def Names {H : Type} (find : String → Option H) (idOf : H → Option String) : Prop :=
  ∀ id h, find id = some h ↔ idOf h = some id

variable {H : Type} {find : String → Option H} {idOf : H → Option String}

theorem Names.inj (hn : Names find idOf) {s : String} {a b : H} (ha : idOf a = some s)
    (hb : idOf b = some s) : a = b :=
  Option.some.inj (((hn s a).mpr ha).symm.trans ((hn s b).mpr hb))

theorem Names.bind_eq_some_iff {E : Type} {get : H → Option E} {carried : E → String}
    (hn : Names find fun h => (get h).map carried) {s : String} {e : E} :
    (find s).bind get = some e ↔ ∃ h, get h = some e ∧ carried e = s := by
  simp only [Option.bind_eq_some_iff, hn s, Option.map_eq_some_iff]
  constructor
  · rintro ⟨h, ⟨d, hd, hs⟩, he⟩
    obtain rfl : d = e := Option.some.inj (hd.symm.trans he)
    exact ⟨h, he, hs⟩
  · rintro ⟨h, he, hs⟩
    exact ⟨h, ⟨e, he, hs⟩, he⟩

variable [DecidableEq H]

theorem Names.insert (hn : Names find idOf) {id : String} {new : H} (hid : find id = none)
    (hnew : idOf new = none) :
    Names (fun s => if s = id then some new else find s)
      (fun h => if h = new then some id else idOf h) := by
  intro s h
  by_cases hs : s = id <;> by_cases hh : h = new
  · simp [hs, hh]
  · have hne : idOf h ≠ some id := fun he => by simp [(hn id h).mpr he] at hid
    simp [hs, hh, hne, Ne.symm hh]
  · have hne : find s ≠ some new := fun he => by simp [(hn s new).mp he] at hnew
    simp [hs, hh, hne, Ne.symm hs]
  · simp [hs, hh, hn s h]

theorem Names.erase (hn : Names find idOf) {id : String} {gone : H} (hid : idOf gone = some id) :
    Names (fun s => if s = id then none else find s)
      (fun h => if h = gone then none else idOf h) := by
  intro s h
  have hfind : find id = some gone := (hn id gone).mpr hid
  by_cases hs : s = id <;> by_cases hh : h = gone
  · simp [hs, hh]
  · have hne : idOf h ≠ some id := fun he => by
      simp [(hn id h).mpr he, hh] at hfind
    simp [hs, hh, hne]
  · have hne : find s ≠ some gone := fun he => by
      simp [(hn s gone).mp he, hs] at hid
    simp [hs, hh, hne]
  · simp [hs, hh, hn s h]

end Registry

section EdgeList

/-- Whether a list holds exactly the edges with a property, oldest first. -/
structure Lists (es : List EdgeHandle) (p : EdgeHandle → Prop) : Prop where
  increasing : es.Pairwise fun a b => a.slot < b.slot
  mem_iff : ∀ e, e ∈ es ↔ p e

variable {es : List EdgeHandle} {p q : EdgeHandle → Prop}

theorem Lists.nil (h : ∀ e, ¬ p e) : Lists [] p :=
  ⟨.nil, by simpa using h⟩

theorem Lists.congr (h : Lists es p) (hpq : ∀ e, p e ↔ q e) : Lists es q :=
  ⟨h.increasing, fun e => (h.mem_iff e).trans (hpq e)⟩

theorem Lists.append (h : Lists es p) {new : EdgeHandle} (hnew : ∀ e, p e → e.slot < new.slot) :
    Lists (es ++ [new]) fun e => p e ∨ e = new := by
  refine ⟨List.pairwise_append.mpr ⟨h.increasing, by simp, ?_⟩, fun e => by simp [h.mem_iff]⟩
  intro a ha b hb
  rw [List.mem_singleton.mp hb]
  exact hnew a ((h.mem_iff a).mp ha)

theorem Lists.filter (h : Lists es p) (gone : EdgeHandle) :
    Lists (es.filter (· != gone)) fun e => p e ∧ e ≠ gone :=
  ⟨h.increasing.filter _, fun e => by simp [h.mem_iff]⟩

theorem Lists.nodup (h : Lists es p) : es.Nodup :=
  h.increasing.imp fun hlt heq => Nat.ne_of_lt hlt (congrArg _ heq)

theorem Lists.isSome {E γ : Type} {get : EdgeHandle → Option E} {near : E → γ} {a : γ}
    (h : Lists es fun e => (get e).map near = some a) {e : EdgeHandle} (he : e ∈ es) :
    (get e).isSome := by
  have ha : (get e).map near = some a := (h.mem_iff e).mp he
  rw [← Option.isSome_map, ha]
  rfl

variable {f : EdgeHandle → Option NodeHandle} {h k : NodeHandle}

theorem Lists.addEdge (hes : Lists es fun e => f e = some k) {new : EdgeHandle}
    (hnew : ∀ e, (f e).isSome → e.slot < new.slot) :
    Lists (if k = h then es ++ [new] else es)
      fun e => (if e = new then some h else f e) = some k := by
  have hfresh : f new = none := by
    apply Option.not_isSome_iff_eq_none.mp
    intro hs
    exact Nat.lt_irrefl _ (hnew new hs)
  split
  · next hk =>
    refine (hes.append fun e he => hnew e (by simp [he])).congr fun e => ?_
    by_cases he : e = new <;> simp [he, hk]
  · next hk =>
    refine hes.congr fun e => ?_
    by_cases he : e = new <;> simp [he, hfresh, Ne.symm hk]

theorem Lists.dropEdge (hes : Lists es fun e => f e = some k) {gone : EdgeHandle}
    (hgone : f gone = some h) :
    Lists (if k = h then es.filter (· != gone) else es)
      fun e => (if e = gone then none else f e) = some k := by
  split
  · refine (hes.filter gone).congr fun e => ?_
    by_cases he : e = gone <;> simp [he]
  · next hk =>
    refine hes.congr fun e => ?_
    by_cases he : e = gone <;> simp [he, hgone, Ne.symm hk]

end EdgeList

section Redraw

structure Node.Redraws (m n : Node) : Prop where
  id : m.id = n.id
  outEdges : m.outEdges = n.outEdges
  inEdges : m.inEdges = n.inEdges
  categories : n.categories.Nodup → m.categories.Nodup

structure Edge.Redraws (f e : Edge) : Prop where
  id : f.id = e.id
  source : f.source = e.source
  destination : f.destination = e.destination

theorem Node.Redraws.refl (n : Node) : n.Redraws n := ⟨rfl, rfl, rfl, fun h => h⟩

theorem Node.Redraws.trans {l m n : Node} (hlm : l.Redraws m) (hmn : m.Redraws n) : l.Redraws n :=
  ⟨hlm.id.trans hmn.id, hlm.outEdges.trans hmn.outEdges, hlm.inEdges.trans hmn.inEdges,
    fun h => hlm.categories (hmn.categories h)⟩

theorem Edge.Redraws.refl (e : Edge) : e.Redraws e := ⟨rfl, rfl, rfl⟩

theorem Edge.Redraws.trans {d e f : Edge} (hde : d.Redraws e) (hef : e.Redraws f) : d.Redraws f :=
  ⟨hde.id.trans hef.id, hde.source.trans hef.source, hde.destination.trans hef.destination⟩

theorem Node.edit_redraws (n : Node) (e : Node.Edit) :
    (n.edit e).Redraws n ∧ (n.edit e).graph = n.graph := by
  cases e with
  | relabel label => exact ⟨⟨rfl, rfl, rfl, fun h => h⟩, rfl⟩
  | addCategory c =>
    by_cases hc : n.hasCategory c
    · simpa [edit, hc] using Redraws.refl n
    · have hnew : c ∉ n.categories := by simpa [hasCategory] using hc
      refine ⟨⟨by simp [edit, hc], by simp [edit, hc], by simp [edit, hc], fun h => ?_⟩,
        by simp [edit, hc]⟩
      simp only [edit, hc, Bool.false_eq_true, if_false, List.nodup_append]
      exact ⟨h, by simp, fun a ha b hb => by
        rw [List.mem_singleton.mp hb]
        exact fun hac => hnew (hac ▸ ha)⟩
  | removeCategory c => exact ⟨⟨rfl, rfl, rfl, fun h => h.filter _⟩, rfl⟩

theorem Node.editAll_redraws (n : Node) (edits : List Node.Edit) :
    (n.editAll edits).Redraws n ∧ (n.editAll edits).graph = n.graph := by
  induction edits generalizing n with
  | nil => exact ⟨.refl n, rfl⟩
  | cons e edits ih =>
    obtain ⟨hr, hown⟩ := ih (n.edit e)
    obtain ⟨hr', hown'⟩ := n.edit_redraws e
    exact ⟨hr.trans hr', hown.trans hown'⟩

theorem Edge.edit_redraws (e : Edge) (d : Edge.Edit) :
    (e.edit d).Redraws e ∧ (e.edit d).graph = e.graph := by
  cases d with
  | relabel label | weigh w => exact ⟨⟨rfl, rfl, rfl⟩, rfl⟩

theorem Edge.editAll_redraws (e : Edge) (edits : List Edge.Edit) :
    (e.editAll edits).Redraws e ∧ (e.editAll edits).graph = e.graph := by
  induction edits generalizing e with
  | nil => exact ⟨.refl e, rfl⟩
  | cons d edits ih =>
    obtain ⟨hr, hown⟩ := ih (e.edit d)
    obtain ⟨hr', hown'⟩ := e.edit_redraws d
    exact ⟨hr.trans hr', hown.trans hown'⟩

end Redraw

namespace Graph

structure NodeFits (g : Graph) (h : NodeHandle) (n : Node) : Prop where
  outEdges : Lists n.outEdges fun e => g.source? e = some h
  inEdges : Lists n.inEdges fun e => g.destination? e = some h
  categories : n.categories.Nodup
  owner : n.graph = g.id

structure EdgeFits (g : Graph) (e : Edge) : Prop where
  source : g.hasNode e.source = true
  destination : g.hasNode e.destination = true
  owner : e.graph = g.id

structure WellFormed (g : Graph) : Prop where
  nodeIds : Names g.nodeHandle? g.nodeId?
  edgeIds : Names g.edgeHandle? g.edgeId?
  nodes : ∀ h n, g.node? h = some n → g.NodeFits h n
  edges : ∀ h e, g.edge? h = some e → g.EdgeFits e

variable {g g' : Graph}

theorem WellFormed.of_no_entities (hn : ∀ h, g.node? h = none) (he : ∀ h, g.edge? h = none)
    (hni : ∀ s, g.nodeHandle? s = none) (hei : ∀ s, g.edgeHandle? s = none) : g.WellFormed where
  nodeIds s h := by simp [nodeId?, hn, hni]
  edgeIds s h := by simp [edgeId?, he, hei]
  nodes h n hh := by simp [hn] at hh
  edges h e hh := by simp [he] at hh

theorem empty_wellFormed (id : GraphId) : (empty id).WellFormed :=
  .of_no_entities (by simp) (by simp) (by simp) (by simp)

theorem clear_wellFormed (g : Graph) : g.clear.WellFormed :=
  .of_no_entities (by simp) (by simp) (by simp) (by simp)

theorem WellFormed.source?_ne (hg : g.WellFormed) {h : NodeHandle} (hh : g.node? h = none)
    (e : EdgeHandle) : g.source? e ≠ some h := by
  intro hs
  obtain ⟨edge, he, rfl⟩ := Option.map_eq_some_iff.mp hs
  have hlive := (hg.edges e edge he).source
  simp [hasNode, hh] at hlive

theorem WellFormed.destination?_ne (hg : g.WellFormed) {h : NodeHandle} (hh : g.node? h = none)
    (e : EdgeHandle) : g.destination? e ≠ some h := by
  intro hd
  obtain ⟨edge, he, rfl⟩ := Option.map_eq_some_iff.mp hd
  have hlive := (hg.edges e edge he).destination
  simp [hasNode, hh] at hlive

theorem WellFormed.mem_outEdges_iff (hg : g.WellFormed) {h : NodeHandle} {k : EdgeHandle} :
    k ∈ g.outEdges h ↔ g.source? k = some h := by
  cases hn : g.node? h with
  | none => simp [outEdges, hn, hg.source?_ne hn k]
  | some n => simpa [outEdges, hn] using (hg.nodes h n hn).outEdges.mem_iff k

theorem WellFormed.mem_inEdges_iff (hg : g.WellFormed) {h : NodeHandle} {k : EdgeHandle} :
    k ∈ g.inEdges h ↔ g.destination? k = some h := by
  cases hn : g.node? h with
  | none => simp [inEdges, hn, hg.destination?_ne hn k]
  | some n => simpa [inEdges, hn] using (hg.nodes h n hn).inEdges.mem_iff k

theorem WellFormed.any_outEdges_iff (hg : g.WellFormed) {h : NodeHandle} {n : Node}
    (hn : g.node? h = some n) (r : Relation) :
    (n.outEdges.any fun k => (g.edge? k).any (·.relation == r)) = true ↔
      ∃ k e, g.edge? k = some e ∧ e.source = h ∧ e.relation.name = r.name := by
  simp only [List.any_eq_true, Option.any_eq_true, Relation.beq_iff_name,
    (hg.nodes h n hn).outEdges.mem_iff, source?, Option.map_eq_some_iff]
  constructor
  · rintro ⟨k, ⟨e, he, hs⟩, f, hf, hname⟩
    obtain rfl : e = f := Option.some.inj (he.symm.trans hf)
    exact ⟨k, e, he, hs, hname⟩
  · rintro ⟨k, e, he, hs, hname⟩
    exact ⟨k, ⟨e, he, hs⟩, e, he, hname⟩

/-- Entities are redrawn in place: nodes keep ids and edges, edges keep ids and endpoints. -/
theorem WellFormed.redraw (hg : g.WellFormed) (fn : NodeHandle → Node → Node)
    (fe : EdgeHandle → Edge → Edge)
    (hn : ∀ h, g'.node? h = (g.node? h).map (fn h)) (he : ∀ h, g'.edge? h = (g.edge? h).map (fe h))
    (hni : ∀ s, g'.nodeHandle? s = g.nodeHandle? s) (hei : ∀ s, g'.edgeHandle? s = g.edgeHandle? s)
    (hfn : ∀ h n, g.node? h = some n → (fn h n).Redraws n ∧ (fn h n).graph = g'.id)
    (hfe : ∀ h e, g.edge? h = some e → (fe h e).Redraws e ∧ (fe h e).graph = g'.id) :
    g'.WellFormed := by
  have hlive : ∀ h, g'.hasNode h = g.hasNode h := fun h => by simp [hasNode, hn]
  have hnid : ∀ h, g'.nodeId? h = g.nodeId? h := fun h => by
    cases hh : g.node? h with
    | none => simp [nodeId?, hn, hh]
    | some n => simp [nodeId?, hn, hh, (hfn h n hh).1.id]
  have heid : ∀ h, g'.edgeId? h = g.edgeId? h ∧
      g'.source? h = g.source? h ∧ g'.destination? h = g.destination? h := fun h => by
    cases hh : g.edge? h with
    | none => simp [edgeId?, source?, destination?, he, hh]
    | some e =>
      have hr := (hfe h e hh).1
      simp [edgeId?, source?, destination?, he, hh, hr.id, hr.source, hr.destination]
  constructor
  case nodeIds => intro s h; rw [hni, hnid]; exact hg.nodeIds s h
  case edgeIds => intro s h; rw [hei, (heid h).1]; exact hg.edgeIds s h
  case nodes =>
    intro h m hm
    rw [hn] at hm
    obtain ⟨n, hh, rfl⟩ := Option.map_eq_some_iff.mp hm
    obtain ⟨hr, hown⟩ := hfn h n hh
    have hfits := hg.nodes h n hh
    refine ⟨?_, ?_, hr.categories hfits.categories, hown⟩
    · rw [hr.outEdges]
      exact hfits.outEdges.congr fun e => by rw [(heid e).2.1]
    · rw [hr.inEdges]
      exact hfits.inEdges.congr fun e => by rw [(heid e).2.2]
  case edges =>
    intro h m hm
    rw [he] at hm
    obtain ⟨e, hh, rfl⟩ := Option.map_eq_some_iff.mp hm
    obtain ⟨hr, hown⟩ := hfe h e hh
    have hfits := hg.edges h e hh
    refine ⟨?_, ?_, hown⟩
    · rw [hr.source, hlive]; exact hfits.source
    · rw [hr.destination, hlive]; exact hfits.destination

theorem WellFormed.modifyNode (hg : g.WellFormed) (h : NodeHandle) {f : Node → Node}
    (hf : ∀ n, (f n).Redraws n ∧ (f n).graph = n.graph) : (g.modifyNode h f).WellFormed := by
  refine hg.redraw (fun j n => if j = h then f n else n) (fun _ e => e) (fun j => ?_) (by simp)
    (by simp) (by simp) (fun j n hj => ?_) (fun j e hj => ⟨.refl e, (hg.edges j e hj).owner⟩)
  · rw [node?_modifyNode]
    split <;> simp
  · have hown := (hg.nodes j n hj).owner
    by_cases hjh : j = h
    · simpa [hjh, (hf n).2] using ⟨(hf n).1, hown⟩
    · simpa [hjh] using ⟨Node.Redraws.refl n, hown⟩

theorem WellFormed.modifyEdge (hg : g.WellFormed) (h : EdgeHandle) {f : Edge → Edge}
    (hf : ∀ e, (f e).Redraws e ∧ (f e).graph = e.graph) : (g.modifyEdge h f).WellFormed := by
  refine hg.redraw (fun _ n => n) (fun j e => if j = h then f e else e) (by simp) (fun j => ?_)
    (by simp) (by simp) (fun j n hj => ⟨.refl n, (hg.nodes j n hj).owner⟩) (fun j e hj => ?_)
  · rw [edge?_modifyEdge]
    split <;> simp
  · have hown := (hg.edges j e hj).owner
    by_cases hjh : j = h
    · simpa [hjh, (hf e).2] using ⟨(hf e).1, hown⟩
    · simpa [hjh] using ⟨Edge.Redraws.refl e, hown⟩

theorem WellFormed.clone (hg : g.WellFormed) (id : GraphId) : (g.clone id).WellFormed :=
  hg.redraw (fun _ n => { n with graph := id }) (fun _ e => { e with graph := id })
    (node?_clone g id) (edge?_clone g id) (by simp) (by simp)
    (fun _ _ _ => ⟨⟨rfl, rfl, rfl, fun hc => hc⟩, rfl⟩) (fun _ _ _ => ⟨⟨rfl, rfl, rfl⟩, rfl⟩)

end Graph

end Multidigraph
