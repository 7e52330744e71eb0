import Multidigraph.Proofs.Ageing
import Multidigraph.Proofs.Removal

namespace Multidigraph

inductive EntityHandle where
  | node (h : NodeHandle)
  | edge (k : EdgeHandle)
  deriving DecidableEq

inductive Identity where
  | node (id : String)
  | edge (id : String) (source destination : NodeHandle) (relation : Relation)

def Outcome.handle? : Outcome → Option EntityHandle
  | nodeHandle h => some (.node h)
  | edgeHandle k => some (.edge k)
  | _ => none

namespace Graph

variable {g g' g'' : Graph} {x : EntityHandle} {i : Identity}

def identity? (g : Graph) : EntityHandle → Option Identity
  | .node h => (g.node? h).map fun n => .node n.id
  | .edge k => (g.edge? k).map fun e => .edge e.id e.source e.destination e.relation

def Used (g : Graph) : EntityHandle → Prop
  | .node h => g.Issued h
  | .edge k => k.slot < g.edgeSlots.size

theorem used_of_identity? (h : g.identity? x = some i) : g.Used x := by
  cases x with
  | node j =>
    obtain ⟨n, hn, -⟩ := Option.map_eq_some_iff.mp h
    exact slot_lt_of_node? hn
  | edge k =>
    obtain ⟨e, he, -⟩ := Option.map_eq_some_iff.mp h
    exact slot_lt_of_edge? he

theorem Ages.used (hages : g.Ages g') (h : g.Used x) : g'.Used x := by
  cases x with
  | node j => exact hages.issued h
  | edge k => exact Nat.lt_of_lt_of_le h hages.edges.size_le

theorem Ages.identity? (hages : g.Ages g') (hused : g.Used x) (h : g'.identity? x = some i) :
    g.identity? x = some i := by
  cases x with
  | node j =>
    obtain ⟨n, hn, rfl⟩ := Option.map_eq_some_iff.mp h
    have hid : (g'.nodeSlots.get? j.slot).map Node.id = some n.id :=
      Option.map_eq_some_iff.mpr ⟨n, hn, rfl⟩
    obtain ⟨m, hm, hmid⟩ := Option.map_eq_some_iff.mp (hages.nodes.kept j.slot n.id hused hid)
    exact Option.map_eq_some_iff.mpr ⟨m, hm, congrArg _ hmid⟩
  | edge k =>
    obtain ⟨e, he, rfl⟩ := Option.map_eq_some_iff.mp h
    have hfixed : (g'.edgeSlots.get? k.slot).map Edge.fixed = some e.fixed :=
      Option.map_eq_some_iff.mpr ⟨e, he, rfl⟩
    obtain ⟨f, hf, hffixed⟩ :=
      Option.map_eq_some_iff.mp (hages.edges.kept k.slot e.fixed hused hfixed)
    simp only [Edge.fixed, Prod.mk.injEq] at hffixed
    obtain ⟨hid, hsource, hdestination, hrelation⟩ := hffixed
    refine Option.map_eq_some_iff.mpr ⟨f, hf, ?_⟩
    rw [hid, hsource, hdestination, hrelation]

/-- Whether a change answers with a handle that names something after it, and with every handle
whose slot it fills. -/
structure Issues (g g' : Graph) (answer : Option EntityHandle) : Prop where
  live : ∀ x, answer = some x → (g'.identity? x).isSome = true
  filled : ∀ x, ¬ g.Used x → g'.Used x → answer = some x

theorem Issues.of_sizes {answer : Option EntityHandle}
    (hnodes : g'.nodeSlots.size = g.nodeSlots.size) (hedges : g'.edgeSlots.size = g.edgeSlots.size)
    (hlive : ∀ x, answer = some x → (g'.identity? x).isSome = true) : g.Issues g' answer where
  live := hlive
  filled x hx hx' := by
    cases x with
    | node j => exact absurd (Nat.lt_of_lt_of_eq hx' hnodes) hx
    | edge k => exact absurd (Nat.lt_of_lt_of_eq hx' hedges) hx

theorem Issues.of_quiet (hnodes : g'.nodeSlots.size = g.nodeSlots.size)
    (hedges : g'.edgeSlots.size = g.edgeSlots.size) : g.Issues g' none :=
  .of_sizes hnodes hedges nofun

theorem Issues.refl (g : Graph) : g.Issues g none := .of_quiet rfl rfl

theorem issues_insertNode (g : Graph) (id label : String) :
    g.Issues (g.insertNode id label).2 (some (.node g.nextNode)) where
  live x hx := by
    cases hx
    simp [identity?, node?_insertNode]
  filled x hx hx' := by
    cases x with
    | node j =>
      have hlt : j.slot < g.nodeSlots.size + 1 :=
        Nat.lt_of_lt_of_eq hx' (Arena.size_push g.nodeSlots _)
      have hslot : g.nextNode.slot = j.slot :=
        Nat.le_antisymm (Nat.le_of_not_lt hx) (Nat.le_of_lt_succ hlt)
      rw [NodeHandle.slot_inj.mp hslot]
    | edge k => exact absurd hx' hx

theorem issues_insertEdge (g : Graph) (r : Relation) (id label : String) (s d : NodeHandle) :
    g.Issues (g.insertEdge r id label s d).2 (some (.edge g.nextEdge)) where
  live x hx := by
    cases hx
    simp [identity?, edge?_insertEdge]
  filled x hx hx' := by
    cases x with
    | node j =>
      have hsize : (g.insertEdge r id label s d).2.nodeSlots.size = g.nodeSlots.size := by
        simp [insertEdge, modifyNode]
      exact absurd (Nat.lt_of_lt_of_eq hx' hsize) hx
    | edge k =>
      have hlt : k.slot < g.edgeSlots.size + 1 :=
        Nat.lt_of_lt_of_eq hx' (Arena.size_push g.edgeSlots _)
      have hslot : g.nextEdge.slot = k.slot :=
        Nat.le_antisymm (Nat.le_of_not_lt hx) (Nat.le_of_lt_succ hlt)
      rw [EdgeHandle.slot_inj.mp hslot]

section Sizes

variable (g : Graph)

theorem sizes_modifyNode (h : NodeHandle) (f : Node → Node) :
    (g.modifyNode h f).nodeSlots.size = g.nodeSlots.size ∧
      (g.modifyNode h f).edgeSlots.size = g.edgeSlots.size := by
  simp [modifyNode]

theorem sizes_modifyEdge (k : EdgeHandle) (f : Edge → Edge) :
    (g.modifyEdge k f).nodeSlots.size = g.nodeSlots.size ∧
      (g.modifyEdge k f).edgeSlots.size = g.edgeSlots.size := by
  simp [modifyEdge]

end Sizes

section Put

variable (hg : g.WellFormed)

include hg

theorem WellFormed.issues_putNode (id label : String) :
    g.Issues (g.putNode id label).2 (some (.node (g.putNode id label).1)) := by
  unfold Graph.putNode
  split
  · next h hh =>
    obtain ⟨hnodes, hedges⟩ := g.sizes_modifyNode h (·.edit (.relabel label))
    refine .of_sizes hnodes hedges fun x hx => ?_
    cases hx
    obtain ⟨n, hn, -⟩ := Option.map_eq_some_iff.mp ((hg.nodeIds id h).mp hh)
    simp [identity?, node?_modifyNode, hn]
  · exact g.issues_insertNode id label

theorem WellFormed.issues_putEdge (r : Relation) (id label : String) (s d : NodeHandle) :
    g.Issues (g.putEdge r id label s d).2
      (Outcome.ofExcept .edgeHandle (g.putEdge r id label s d).1).handle? := by
  unfold Graph.putEdge
  split
  · exact .refl g
  · split
    · exact g.issues_insertEdge r id label s d
    · next k hk =>
      obtain ⟨e, he, -⟩ := Option.map_eq_some_iff.mp ((hg.edgeIds id k).mp hk)
      rw [he]
      dsimp only
      split
      · obtain ⟨hnodes, hedges⟩ := g.sizes_modifyEdge k (·.edit (.relabel label))
        refine .of_sizes hnodes hedges fun x hx => ?_
        cases hx
        simp [identity?, edge?_modifyEdge, he]
      · exact .refl g

theorem WellFormed.issues_eraseNode (h : NodeHandle) :
    g.Issues (g.eraseNode h).2 (Outcome.ofExcept .node (g.eraseNode h).1).handle? := by
  cases hn : g.node? h with
  | none =>
    have herase : g.eraseNode h = (.error (.nodeNotFound h.text), g) := by
      simp [Graph.eraseNode, hn]
    rw [herase]
    exact .refl g
  | some n =>
    rw [hg.eraseNode_eq hn]
    exact .of_quiet (by simp) (by simp)

theorem WellFormed.issues_eraseEdge (k : EdgeHandle) :
    g.Issues (g.eraseEdge k).2 (Outcome.ofExcept .edge (g.eraseEdge k).1).handle? := by
  cases he : g.edge? k with
  | none =>
    rw [eraseEdge_of_none he]
    exact .refl g
  | some e =>
    rw [hg.eraseEdge_eq he]
    exact .of_quiet (by simp) (by simp)

end Put

section Fresh

variable (g : Graph)

theorem issues_freshNode (label : String) (draws : List Uuid) :
    g.Issues (g.freshNode label draws).2
      (Outcome.ofOption .nodeHandle (g.freshNode label draws).1).handle? := by
  unfold freshNode
  split
  · exact .refl g
  · exact g.issues_insertNode _ label

theorem issues_freshEdge (r : Relation) (label : String) (s d : NodeHandle) (draws : List Uuid) :
    g.Issues (g.freshEdge r label s d draws).2
      (Outcome.ofExcept (.ofOption .edgeHandle) (g.freshEdge r label s d draws).1).handle? := by
  unfold freshEdge
  split
  · exact .refl g
  · split
    · exact .refl g
    · exact g.issues_insertEdge r _ label s d

theorem issues_updateNode (h : NodeHandle) (e : Node.Edit) :
    g.Issues (g.updateNode h e).2
      (Outcome.ofExcept (fun _ => .done) (g.updateNode h e).1).handle? := by
  unfold updateNode
  split
  · obtain ⟨hnodes, hedges⟩ := g.sizes_modifyNode h (·.edit e)
    exact .of_quiet hnodes hedges
  · exact .refl g

theorem issues_updateEdge (k : EdgeHandle) (e : Edge.Edit) :
    g.Issues (g.updateEdge k e).2
      (Outcome.ofExcept (fun _ => .done) (g.updateEdge k e).1).handle? := by
  unfold updateEdge
  split
  · obtain ⟨hnodes, hedges⟩ := g.sizes_modifyEdge k (·.edit e)
    exact .of_quiet hnodes hedges
  · exact .refl g

theorem issues_editNode (h : NodeHandle) (edits : List Node.Edit) :
    g.Issues (g.editNode h edits).2
      (Outcome.ofOption .node (g.editNode h edits).1).handle? := by
  obtain ⟨hnodes, hedges⟩ := g.sizes_modifyNode h (·.editAll edits)
  cases hn : (g.editNode h edits).1 <;> exact .of_quiet hnodes hedges

theorem issues_editEdge (k : EdgeHandle) (edits : List Edge.Edit) :
    g.Issues (g.editEdge k edits).2
      (Outcome.ofOption .edge (g.editEdge k edits).1).handle? := by
  obtain ⟨hnodes, hedges⟩ := g.sizes_modifyEdge k (·.editAll edits)
  cases he : (g.editEdge k edits).1 <;> exact .of_quiet hnodes hedges

end Fresh

end Graph

namespace Operation

variable {g : Graph} {x : EntityHandle} {i : Identity}

/-- The handles that operations answer with. -/
def issued (ops : List Operation) (g : Graph) : List EntityHandle :=
  (run ops g).1.filterMap Outcome.handle?

theorem apply_issues (hg : g.WellFormed) (op : Operation) :
    g.Issues (op.apply g).2 (op.apply g).1.handle? := by
  cases op with
  | putNode id label => exact hg.issues_putNode id label
  | freshNode label draws => exact g.issues_freshNode label draws
  | putEdge r id label s d => exact hg.issues_putEdge r id label s d
  | freshEdge r label s d draws => exact g.issues_freshEdge r label s d draws
  | eraseNode h => exact hg.issues_eraseNode h
  | eraseEdge k => exact hg.issues_eraseEdge k
  | updateNode h e => exact g.issues_updateNode h e
  | updateEdge k e => exact g.issues_updateEdge k e
  | editNode h edits => exact g.issues_editNode h edits
  | editEdge k edits => exact g.issues_editEdge k edits
  | clear => exact .of_quiet (Arena.size_clear _) (Arena.size_clear _)
  | clone id => exact .of_quiet (Arena.size_map _ _) (Arena.size_map _ _)

theorem issued_cons (op : Operation) (ops : List Operation) (g : Graph) :
    x ∈ issued (op :: ops) g ↔ (op.apply g).1.handle? = some x ∨ x ∈ issued ops (op.apply g).2 := by
  simp only [issued, run, List.mem_filterMap, List.mem_cons, exists_eq_or_imp]

theorem used_run_iff (hg : g.WellFormed) (ops : List Operation) :
    (run ops g).2.Used x ↔ g.Used x ∨ x ∈ issued ops g := by
  induction ops generalizing g with
  | nil => simp [issued, run]
  | cons op ops ih =>
    have hissues := apply_issues hg op
    have hstep : (op.apply g).2.Used x ↔ g.Used x ∨ (op.apply g).1.handle? = some x := by
      constructor
      · intro hx
        exact or_iff_not_imp_left.mpr fun hnot => hissues.filled x hnot hx
      · rintro (hx | hx)
        · exact (op.apply_ages g).used hx
        · obtain ⟨i, hi⟩ := Option.isSome_iff_exists.mp (hissues.live x hx)
          exact Graph.used_of_identity? hi
    rw [issued_cons, ← or_assoc, ← hstep]
    exact ih (apply_wellFormed hg op)

theorem used_ofHistory_iff (id : GraphId) (history : List Operation) :
    (Graph.ofHistory id history).Used x ↔ x ∈ issued history (.empty id) := by
  have hempty : ¬ (Graph.empty id).Used x := by
    cases x <;> exact Nat.not_lt_zero _
  exact (used_run_iff (Graph.empty_wellFormed id) history).trans (or_iff_right hempty)

theorem identity?_of_mem_issued (hg : g.WellFormed) {later : List Operation} (hx : g.Used x)
    (hagain : x ∈ issued later g) : ∃ i, g.identity? x = some i := by
  induction later generalizing g with
  | nil => cases hagain
  | cons op later ih =>
    have hages := op.apply_ages g
    have hthen : ∃ i, (op.apply g).2.identity? x = some i := by
      obtain hnow | hlater := (issued_cons op later g).mp hagain
      · exact Option.isSome_iff_exists.mp ((apply_issues hg op).live x hnow)
      · exact ih (apply_wellFormed hg op) (hages.used hx) hlater
    obtain ⟨i, hi⟩ := hthen
    exact ⟨i, hages.identity? hx hi⟩

/-- Handles are permanent. One that was not given out yet names nothing. One that is given out names
an entity, and later that entity or nothing. Once it names nothing it does so for good, and it is
not given out again. A handle that comes to name an entity is given out then, for the first time;
one that is given out again names the entity that it named before. -/
theorem handles_permanent (id : GraphId) (history : List Operation) :
    let g := Graph.ofHistory id history
    let given := issued history (.empty id)
    (∀ x, x ∉ given → g.identity? x = none) ∧
    (∀ (op : Operation) (x : EntityHandle), (op.apply g).1.handle? = some x →
      ∃ i, (op.apply g).2.identity? x = some i ∧
        ∀ later i', (run later (op.apply g).2).2.identity? x = some i' → i' = i) ∧
    (∀ x ∈ given, g.identity? x = none →
      ∀ later, (run later g).2.identity? x = none ∧ x ∉ issued later g) ∧
    (∀ (op : Operation) (x : EntityHandle), g.identity? x = none →
      (op.apply g).2.identity? x ≠ none → x ∉ given ∧ (op.apply g).1.handle? = some x) ∧
    ∀ (op : Operation), ∀ x ∈ given, (op.apply g).1.handle? = some x →
      ∃ i, g.identity? x = some i ∧ (op.apply g).2.identity? x = some i := by
  intro g given
  have hg : g.WellFormed := Graph.ofHistory_wellFormed id history
  have hused : ∀ x, g.Used x ↔ x ∈ given := fun x => used_ofHistory_iff id history
  have hanswer : ∀ (op : Operation) (x : EntityHandle), (op.apply g).1.handle? = some x →
      ∃ i, (op.apply g).2.identity? x = some i := fun op x hx =>
    Option.isSome_iff_exists.mp ((apply_issues hg op).live x hx)
  refine ⟨fun x hx => ?_, fun op x hx => ?_, fun x hx hnone later => ⟨?_, fun hagain => ?_⟩,
    fun op x hnone hthen => ?_, fun op x hx hagain => ?_⟩
  · rw [Option.eq_none_iff_forall_ne_some]
    exact fun i hi => hx ((hused x).mp (Graph.used_of_identity? hi))
  · obtain ⟨i, hi⟩ := hanswer op x hx
    refine ⟨i, hi, fun later i' hi' => ?_⟩
    have hbefore := (run_ages later _).identity? (Graph.used_of_identity? hi) hi'
    exact Option.some.inj (hbefore.symm.trans hi)
  · rw [Option.eq_none_iff_forall_ne_some] at hnone ⊢
    exact fun i hi => hnone i ((run_ages later g).identity? ((hused x).mpr hx) hi)
  · obtain ⟨i, hi⟩ := identity?_of_mem_issued hg ((hused x).mpr hx) hagain
    rw [hnone] at hi
    cases hi
  · obtain ⟨i, hi⟩ := Option.ne_none_iff_exists'.mp hthen
    have hnew : ¬ g.Used x := by
      intro hx
      rw [(op.apply_ages g).identity? hx hi] at hnone
      cases hnone
    exact ⟨mt (hused x).mpr hnew, (apply_issues hg op).filled x hnew (Graph.used_of_identity? hi)⟩
  · obtain ⟨i, hi⟩ := hanswer op x hagain
    exact ⟨i, (op.apply_ages g).identity? ((hused x).mpr hx) hi, hi⟩

/-- An identifier that comes back comes under another handle. -/
example : issued [.putNode "a" "", .eraseNode ⟨0⟩, .putNode "a" ""] (.empty ⟨⟨0⟩⟩) =
    [.node ⟨0⟩, .node ⟨1⟩] := by
  decide +kernel

end Operation

end Multidigraph
