import Multidigraph.Proofs.Permanence

namespace Multidigraph

abbrev LabelWrites := List (EntityHandle × String)

def LabelWrites.last? (ws : LabelWrites) (x : EntityHandle) : Option String := ws.reverse.lookup x

namespace LabelWrites

variable {ws : LabelWrites} {x y : EntityHandle} {label : String}

@[simp] theorem last?_nil : last? [] x = none := rfl

theorem last?_append_singleton :
    last? (ws ++ [(y, label)]) x = if x = y then some label else last? ws x := by
  rw [last?, List.reverse_append, List.reverse_singleton, List.singleton_append, List.lookup_cons]
  by_cases hxy : x = y
  · simp [hxy]
  · simp [beq_eq_false_iff_ne.mpr hxy, hxy, last?]

end LabelWrites

namespace Graph

variable (g : Graph) (ws : LabelWrites)

def label? : EntityHandle → Option String
  | .node h => (g.node? h).map Node.label
  | .edge k => (g.edge? k).map Edge.label

def relabel (x : EntityHandle) (label : String) : Graph :=
  match x with
  | .node h => g.modifyNode h (·.edit (.relabel label))
  | .edge k => g.modifyEdge k (·.edit (.relabel label))

def overwrite : Graph := ws.foldl (fun g w => g.relabel w.1 w.2) g

@[simp] theorem overwrite_nil : g.overwrite [] = g := rfl

@[simp] theorem overwrite_singleton (w : EntityHandle × String) :
    g.overwrite [w] = g.relabel w.1 w.2 := rfl

theorem overwrite_append (ws' : LabelWrites) :
    g.overwrite (ws ++ ws') = (g.overwrite ws).overwrite ws' := by
  simp [overwrite]

theorem node?_overwrite (h : NodeHandle) :
    (g.overwrite ws).node? h =
      (g.node? h).map fun n => { n with label := (ws.last? (.node h)).getD n.label } := by
  induction ws using List.reverseRecOn with
  | nil => simp
  | append_singleton ws w ih =>
    obtain ⟨x, label⟩ := w
    rw [overwrite_append, overwrite_singleton, LabelWrites.last?_append_singleton]
    cases x with
    | node j =>
      rw [relabel, node?_modifyNode, ih]
      by_cases hj : h = j
      · simp [hj, Node.edit, Function.comp_def]
      · simp [hj]
    | edge k => simpa [relabel] using ih

theorem edge?_overwrite (k : EdgeHandle) :
    (g.overwrite ws).edge? k =
      (g.edge? k).map fun e => { e with label := (ws.last? (.edge k)).getD e.label } := by
  induction ws using List.reverseRecOn with
  | nil => simp
  | append_singleton ws w ih =>
    obtain ⟨x, label⟩ := w
    rw [overwrite_append, overwrite_singleton, LabelWrites.last?_append_singleton]
    cases x with
    | node j => simpa [relabel] using ih
    | edge j =>
      rw [relabel, edge?_modifyEdge, ih]
      by_cases hj : k = j
      · simp [hj, Edge.edit, Function.comp_def]
      · simp [hj]

theorem frame_overwrite :
    (g.overwrite ws).id = g.id ∧ (g.overwrite ws).nodeSlots.size = g.nodeSlots.size ∧
      (g.overwrite ws).edgeSlots.size = g.edgeSlots.size ∧
      (g.overwrite ws).nodeIds = g.nodeIds ∧ (g.overwrite ws).edgeIds = g.edgeIds := by
  induction ws using List.reverseRecOn with
  | nil => simp
  | append_singleton ws w ih =>
    obtain ⟨x, label⟩ := w
    rw [overwrite_append, overwrite_singleton]
    cases x with
    | node j => simpa [relabel, modifyNode] using ih
    | edge k => simpa [relabel, modifyEdge] using ih

/-- Whether a graph shows the labels that were written last. -/
def Shows : Prop := ∀ x label, ws.last? x = some label → g.label? x = some label

section Labels

variable (x : EntityHandle)

theorem label?_relabel (y : EntityHandle) (label : String) :
    (g.relabel y label).label? x = (g.label? x).map fun old => if x = y then label else old := by
  cases x with
  | node h =>
    cases y with
    | node j =>
      by_cases hj : h = j <;>
        simp [relabel, label?, node?_modifyNode, hj, Node.edit, Function.comp_def]
    | edge k => simp [relabel, label?, Function.comp_def]
  | edge k =>
    cases y with
    | node j => simp [relabel, label?, Function.comp_def]
    | edge j =>
      by_cases hj : k = j <;>
        simp [relabel, label?, edge?_modifyEdge, hj, Edge.edit, Function.comp_def]

theorem label?_insertNode (id label : String) :
    (g.insertNode id label).2.label? x =
      if x = .node g.nextNode then some label else g.label? x := by
  cases x with
  | node h => by_cases hh : h = g.nextNode <;> simp [label?, node?_insertNode, hh, Node.isolated]
  | edge k => simp [label?]

theorem label?_insertEdge (r : Relation) (id label : String) (s d : NodeHandle) :
    (g.insertEdge r id label s d).2.label? x =
      if x = .edge g.nextEdge then some label else g.label? x := by
  cases x with
  | node h => simp [label?, node?_insertEdge, Function.comp_def]
  | edge k => by_cases hk : k = g.nextEdge <;> simp [label?, edge?_insertEdge, hk]

end Labels

variable {g ws} {g' : Graph}

theorem Shows.append_singleton (h : g.Shows ws) {y : EntityHandle} {label : String}
    (hy : g'.label? y = some label)
    (hrest : ∀ x l, x ≠ y → g.label? x = some l → g'.label? x = some l) :
    g'.Shows (ws ++ [(y, label)]) := by
  intro x l hl
  rw [LabelWrites.last?_append_singleton] at hl
  split at hl
  · next hxy => rw [hxy, hy, hl]
  · next hxy => exact hrest x l hxy (h x l hl)

theorem Shows.overwrite_eq (h : g.Shows ws) : g.overwrite ws = g := by
  obtain ⟨hid, hnodes, hedges, hnodeIds, hedgeIds⟩ := g.frame_overwrite ws
  refine ext_lookups hid hnodes hedges (fun j => ?_) (fun k => ?_)
    (fun s => congrArg (·[s]?) hnodeIds) fun s => congrArg (·[s]?) hedgeIds
  · rw [node?_overwrite]
    cases hn : g.node? j with
    | none => rfl
    | some n =>
      cases hl : ws.last? (.node j) with
      | none => rfl
      | some label =>
        have hlabel : g.label? (.node j) = some label := h _ _ hl
        simp only [label?, hn, Option.map_some, Option.some.injEq] at hlabel
        simp [← hlabel]
  · rw [edge?_overwrite]
    cases he : g.edge? k with
    | none => rfl
    | some e =>
      cases hl : ws.last? (.edge k) with
      | none => rfl
      | some label =>
        have hlabel : g.label? (.edge k) = some label := h _ _ hl
        simp only [label?, he, Option.map_some, Option.some.injEq] at hlabel
        simp [← hlabel]

end Graph

end Multidigraph
