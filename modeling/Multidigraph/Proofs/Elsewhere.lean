import Multidigraph.Proofs.BackEdges
import Multidigraph.Proofs.Drift
import Multidigraph.Proofs.Permanence

open Relation

namespace Multidigraph

open Walk

/-- Whether an operation takes away no node that can be reached, and neither makes nor takes away an
edge out of one. -/
structure Operation.LeavesAlone (start : NodeHandle) (op : Operation) (g : Graph) : Prop where
  node : ∀ a, ReflTransGen g.Adj start a → (op.apply g).2.hasNode a = true
  edge : ∀ a, ReflTransGen g.Adj start a → ∀ k,
    (op.apply g).2.source? k = some a ↔ g.source? k = some a

namespace Graph

variable {g g' g'' : Graph} {start a b : NodeHandle} {k : EdgeHandle}

theorem adj_iff : g.Adj a b ↔ ∃ k, g.source? k = some a ∧ g.destination? k = some b := by
  constructor
  · rintro ⟨k, e, he, rfl, rfl⟩
    exact ⟨k, by simp [source?, he], by simp [destination?, he]⟩
  · rintro ⟨k, hs, hd⟩
    obtain ⟨e, he, rfl⟩ := Option.map_eq_some_iff.mp hs
    obtain ⟨f, hf, rfl⟩ := Option.map_eq_some_iff.mp hd
    obtain rfl : e = f := Option.some.inj (he.symm.trans hf)
    exact ⟨k, e, he, rfl, rfl⟩

theorem Ages.destination? (hages : g.Ages g') (hk : g.source? k = some a)
    (hk' : g'.source? k = some b) : g'.destination? k = g.destination? k := by
  obtain ⟨e, he, -⟩ := Option.map_eq_some_iff.mp hk
  obtain ⟨f, hf, -⟩ := Option.map_eq_some_iff.mp hk'
  have hnow : g'.identity? (.edge k) = some (.edge f.id f.source f.destination f.relation) := by
    simp [Graph.identity?, hf]
  have hthen := hages.identity? (show g.Used (.edge k) from slot_lt_of_edge? he) hnow
  simp only [Graph.identity?, he, Option.map_some, Option.some.injEq, Identity.edge.injEq] at hthen
  simp [Graph.destination?, he, hf, hthen.2.2.1]

/-- Whether all that can be reached in a graph is in what has become of it, and lists the same
edges. -/
structure SamePart (start : NodeHandle) (g g' : Graph) : Prop where
  ages : g.Ages g'
  node : ∀ a, ReflTransGen g.Adj start a → g'.hasNode a = true
  edge : ∀ a, ReflTransGen g.Adj start a → ∀ k, g'.source? k = some a ↔ g.source? k = some a

namespace SamePart

theorem refl (hg : g.WellFormed) (hstart : g.hasNode start = true) : SamePart start g g :=
  ⟨.refl g, fun _ => hasNode_of_reflTransGen hg hstart, fun _ _ _ => Iff.rfl⟩

theorem adj_iff_of_reached (h : SamePart start g g') (ha : ReflTransGen g.Adj start a) :
    g'.Adj a b ↔ g.Adj a b := by
  rw [adj_iff, adj_iff]
  refine exists_congr fun k => ?_
  rw [h.edge a ha]
  refine and_congr_right fun hk => ?_
  rw [h.ages.destination? hk ((h.edge a ha k).mpr hk)]

theorem reached_iff (h : SamePart start g g') :
    ReflTransGen g'.Adj start a ↔ ReflTransGen g.Adj start a := by
  constructor
  · intro ha
    induction ha with
    | refl => exact .refl
    | tail _ hstep ih => exact ih.tail ((h.adj_iff_of_reached ih).mp hstep)
  · intro ha
    induction ha with
    | refl => exact .refl
    | tail hreached hstep ih => exact ih.tail ((h.adj_iff_of_reached hreached).mpr hstep)

theorem trans (h : SamePart start g g') (h' : SamePart start g' g'') : SamePart start g g'' where
  ages := h.ages.trans h'.ages
  node a ha := h'.node a (h.reached_iff.mpr ha)
  edge a ha k := (h'.edge a (h.reached_iff.mpr ha) k).trans (h.edge a ha k)

theorem outgoing (h : SamePart start g g') (hg : g.WellFormed) (hg' : g'.WellFormed)
    (ha : ReflTransGen g.Adj start a) : navigation.outgoing g' a = navigation.outgoing g a := by
  have hlists : g'.outEdges a = g.outEdges a :=
    (hg'.lists_outEdges a).unique ((hg.lists_outEdges a).congr fun k => (h.edge a ha k).symm)
  simp only [navigation, hlists]
  refine List.map_congr_left fun k hk => ?_
  have hsource : g.source? k = some a := hg.mem_outEdges_iff.mp hk
  exact h.ages.destination? hsource ((h.edge a ha k).mpr hsource)

end SamePart

end Graph

namespace Operation

variable {g : Graph} {start : NodeHandle} {op : Operation}

theorem LeavesAlone.samePart (h : op.LeavesAlone start g) : g.SamePart start (op.apply g).2 :=
  ⟨op.apply_ages g, h.node, h.edge⟩

theorem samePart_run (hg : g.WellFormed) (hstart : g.hasNode start = true) {ops : List Operation}
    (hops : Throughout (fun earlier op => op.LeavesAlone start (run earlier g).2) ops) :
    g.SamePart start (run ops g).2 := by
  induction ops using List.reverseRecOn with
  | nil => exact .refl hg hstart
  | append_singleton earlier op ih =>
    obtain ⟨hearlier, hop⟩ := throughout_append_singleton.mp hops
    rw [run_append]
    exact (ih hearlier).trans hop.samePart

end Operation

section Outside

variable {g : Graph} {start a : NodeHandle} {op : Operation}

/-- Whether an operation touches only what cannot be reached, or redraws things in place. -/
def Operation.Outside (start : NodeHandle) (g : Graph) : Operation → Prop
  | putEdge _ id _ s _ => ReflTransGen g.Adj start s → (g.edgeHandle? id).isSome = true
  | freshEdge _ _ s _ _ => ¬ ReflTransGen g.Adj start s
  | eraseNode h => ¬ ReflTransGen g.Adj start h
  | eraseEdge k => ∀ a, g.source? k = some a → ¬ ReflTransGen g.Adj start a
  | clear => False
  | _ => True

namespace Graph

theorem source?_modifyEdge (g : Graph) (j : EdgeHandle) {f : Edge → Edge}
    (hf : ∀ e, (f e).fixed = e.fixed) (k : EdgeHandle) :
    (g.modifyEdge j f).source? k = g.source? k := by
  have hsource : ∀ e, (f e).source = e.source := fun e => congrArg (fun x => x.2.1) (hf e)
  simp only [source?, edge?_modifyEdge]
  split <;> simp [Function.comp_def, hsource]

theorem source?_insertEdge_iff {r : Relation} {id label : String} {s d : NodeHandle} (hs : s ≠ a)
    (k : EdgeHandle) :
    (g.insertEdge r id label s d).2.source? k = some a ↔ g.source? k = some a := by
  rw [source?_insertEdge]
  split
  · next hk => simp [hk, source?, edge?_nextEdge, hs]
  · rfl

theorem source?_without_iff {h : NodeHandle} (hsource : a ≠ h)
    (hdestination : ∀ b, g.Adj a b → b ≠ h) (k : EdgeHandle) :
    (g.without {h} ∅).source? k = some a ↔ g.source? k = some a := by
  rw [source?, edge?_without]
  split
  · rfl
  · next hgone =>
    refine iff_of_false (by simp) fun hk => hgone (stays_iff.mpr ?_)
    obtain ⟨e, he, rfl⟩ := Option.map_eq_some_iff.mp hk
    have hend : e.destination ≠ h := hdestination _ ⟨k, e, he, rfl, rfl⟩
    exact ⟨e, he, Finset.notMem_empty k, by simpa using hsource, by simpa using hend⟩

end Graph

namespace Operation

open Multidigraph.Graph in
theorem Outside.edge (hg : g.WellFormed) (h : op.Outside start g)
    (ha : ReflTransGen g.Adj start a) (k : EdgeHandle) :
    (op.apply g).2.source? k = some a ↔ g.source? k = some a := by
  cases op with
  | putNode id label =>
    simp only [apply, answer, Graph.putNode]
    split <;> rfl
  | freshNode label draws =>
    simp only [apply, answer, Graph.freshNode]
    split <;> rfl
  | putEdge r id label s d =>
    simp only [apply, answer, Graph.putEdge]
    split
    · rfl
    · split
      · next hid =>
        refine source?_insertEdge_iff (fun hs => ?_) k
        simpa [hid] using h (hs ▸ ha)
      · split
        · rfl
        · split
          · rw [source?_modifyEdge _ _ fun e => e.fixed_edit _]
          · rfl
  | freshEdge r label s d draws =>
    simp only [apply, answer, Graph.freshEdge]
    split
    · rfl
    · split
      · rfl
      · exact source?_insertEdge_iff (fun hs : s = a => h (hs ▸ ha)) k
  | eraseNode j =>
    cases hn : g.node? j with
    | none => simp [apply, answer, Graph.eraseNode, hn]
    | some n =>
      simp only [apply, answer, hg.eraseNode_eq hn]
      exact source?_without_iff (fun haj : a = j => h (haj ▸ ha))
        (fun b hab (hbj : b = j) => h (hbj ▸ ha.tail hab)) k
  | eraseEdge j =>
    cases he : g.edge? j with
    | none => simp [apply, answer, Graph.eraseEdge_of_none he]
    | some e =>
      simp only [apply, answer, Graph.eraseEdge_of_some he, source?_withoutEdge]
      split
      · next hk => exact iff_of_false (by simp) fun hka => h a (hk ▸ hka) ha
      · rfl
  | updateNode j e =>
    simp only [apply, answer, Graph.updateNode]
    split <;> rfl
  | updateEdge j e =>
    simp only [apply, answer, Graph.updateEdge]
    split
    · rw [source?_modifyEdge _ _ fun edge => edge.fixed_edit e]
    · rfl
  | editNode j edits => rfl
  | editEdge j edits =>
    simp only [apply, answer, Graph.editEdge]
    rw [source?_modifyEdge _ _ fun edge => edge.fixed_editAll edits]
  | clear => cases h
  | clone id => simp [apply, source?, edge?_clone, Function.comp_def]

theorem Outside.leavesAlone (hg : g.WellFormed) (hstart : g.hasNode start = true)
    (h : op.Outside start g) : op.LeavesAlone start g := by
  refine ⟨fun a ha => ?_, fun a ha k => h.edge hg ha k⟩
  have hlive : g.hasNode a = true := Graph.hasNode_of_reflTransGen hg hstart ha
  cases htakes : op.takesNodes with
  | false => exact hasNode_apply htakes hlive
  | true =>
    cases op with
    | eraseNode j =>
      cases hn : g.node? j with
      | none => simpa [apply, answer, Graph.eraseNode, hn] using hlive
      | some n =>
        have hne : a ≠ j := fun haj => h (haj ▸ ha)
        simpa [apply, answer, hg.eraseNode_eq hn, Graph.hasNode, Graph.node?_without, hne]
          using hlive
    | clear => cases h
    | _ => cases htakes

end Operation

end Outside

end Multidigraph
