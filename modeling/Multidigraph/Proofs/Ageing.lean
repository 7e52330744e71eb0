import Multidigraph.Proofs.WellFormed

namespace Multidigraph

namespace Arena

variable {α κ : Type} {key : α → κ} {a b c : Arena α}

/-- Whether an arena may have become another one: no slot is lost, and what an old slot still holds
has the key that it had. -/
structure Ages (key : α → κ) (a b : Arena α) : Prop where
  size_le : a.size ≤ b.size
  kept : ∀ i k, i < a.size → (b.get? i).map key = some k → (a.get? i).map key = some k

theorem Ages.refl (key : α → κ) (a : Arena α) : a.Ages key a := ⟨Nat.le_refl _, fun _ _ _ h => h⟩

theorem Ages.trans (hab : a.Ages key b) (hbc : b.Ages key c) : a.Ages key c where
  size_le := Nat.le_trans hab.size_le hbc.size_le
  kept i k hi h := hab.kept i k hi (hbc.kept i k (Nat.lt_of_lt_of_le hi hab.size_le) h)

theorem ages_push (a : Arena α) (x : α) : a.Ages key (a.push x) where
  size_le := Nat.le_of_lt (Nat.lt_of_lt_of_eq (Nat.lt_succ_self _) (a.size_push x).symm)
  kept i k hi h := by rwa [get?_push, if_neg (Nat.ne_of_lt hi)] at h

theorem ages_modify {f : α → α} (hf : ∀ x, key (f x) = key x) (a : Arena α) (i : Nat) :
    a.Ages key (a.modify i f) where
  size_le := Nat.le_of_eq (a.size_modify i f).symm
  kept j k _ h := by
    rw [get?_modify] at h
    split at h
    · rwa [Option.map_map, show key ∘ f = key from funext hf] at h
    · exact h

theorem ages_map {f : α → α} (hf : ∀ x, key (f x) = key x) (a : Arena α) :
    a.Ages key (a.map f) where
  size_le := Nat.le_of_eq (a.size_map f).symm
  kept j k _ h := by rwa [get?_map, Option.map_map, show key ∘ f = key from funext hf] at h

theorem ages_free (a : Arena α) (i : Nat) : a.Ages key (a.free i) where
  size_le := Nat.le_of_eq (a.size_free i).symm
  kept j k _ h := by
    rw [get?_free] at h
    split at h
    · cases h
    · exact h

theorem ages_clear (a : Arena α) : a.Ages key a.clear where
  size_le := Nat.le_of_eq a.size_clear.symm
  kept j k _ h := by rw [get?_clear] at h; cases h

end Arena

section Ids

variable (e : EdgeHandle) (n : Node)

theorem Node.id_linkOut : (n.linkOut e).id = n.id := rfl

theorem Node.id_linkIn : (n.linkIn e).id = n.id := rfl

theorem Node.id_unlinkOut : (n.unlinkOut e).id = n.id := rfl

theorem Node.id_unlinkIn : (n.unlinkIn e).id = n.id := rfl

end Ids

def Edge.fixed (e : Edge) : String × NodeHandle × NodeHandle × Relation :=
  (e.id, e.source, e.destination, e.relation)

theorem Edge.fixed_edit (e : Edge) (d : Edge.Edit) : (e.edit d).fixed = e.fixed := by
  cases d <;> rfl

theorem Edge.fixed_editAll (e : Edge) (edits : List Edge.Edit) :
    (e.editAll edits).fixed = e.fixed := by
  induction edits generalizing e with
  | nil => rfl
  | cons d edits ih => exact (ih (e.edit d)).trans (e.fixed_edit d)

namespace Graph

structure Ages (g g' : Graph) : Prop where
  nodes : g.nodeSlots.Ages Node.id g'.nodeSlots
  edges : g.edgeSlots.Ages Edge.fixed g'.edgeSlots

variable {g g' g'' : Graph}

theorem Ages.refl (g : Graph) : g.Ages g := ⟨.refl _ _, .refl _ _⟩

theorem Ages.trans (h : g.Ages g') (h' : g'.Ages g'') : g.Ages g'' :=
  ⟨h.nodes.trans h'.nodes, h.edges.trans h'.edges⟩

theorem ages_modifyNode (g : Graph) (h : NodeHandle) {f : Node → Node}
    (hf : ∀ n, (f n).id = n.id) : g.Ages (g.modifyNode h f) :=
  ⟨g.nodeSlots.ages_modify hf h.slot, .refl _ _⟩

theorem ages_modifyEdge (g : Graph) (h : EdgeHandle) {f : Edge → Edge}
    (hf : ∀ e, (f e).fixed = e.fixed) : g.Ages (g.modifyEdge h f) :=
  ⟨.refl _ _, g.edgeSlots.ages_modify hf h.slot⟩

theorem ages_modify_modify (a : Arena Node) (s d : NodeHandle) {f f' : Node → Node}
    (hf : ∀ n, (f n).id = n.id) (hf' : ∀ n, (f' n).id = n.id) :
    a.Ages Node.id ((a.modify s.slot f).modify d.slot f') :=
  (a.ages_modify hf s.slot).trans (Arena.ages_modify hf' _ d.slot)

theorem ages_insertNode (g : Graph) (id label : String) : g.Ages (g.insertNode id label).2 :=
  ⟨g.nodeSlots.ages_push _, .refl _ _⟩

theorem ages_insertEdge (g : Graph) (r : Relation) (id label : String) (s d : NodeHandle) :
    g.Ages (g.insertEdge r id label s d).2 :=
  ⟨ages_modify_modify _ s d (Node.id_linkOut g.nextEdge) (Node.id_linkIn g.nextEdge),
    g.edgeSlots.ages_push _⟩

theorem ages_putNode (g : Graph) (id label : String) : g.Ages (g.putNode id label).2 := by
  unfold putNode
  split
  · exact g.ages_modifyNode _ fun _ => rfl
  · exact g.ages_insertNode id label

theorem ages_putEdge (g : Graph) (r : Relation) (id label : String) (s d : NodeHandle) :
    g.Ages (g.putEdge r id label s d).2 := by
  unfold putEdge
  split
  · exact .refl g
  · split
    · exact g.ages_insertEdge r id label s d
    · split
      · exact .refl g
      · split
        · exact g.ages_modifyEdge _ fun e => e.fixed_edit _
        · exact .refl g

theorem ages_freshNode (g : Graph) (label : String) (draws : List Uuid) :
    g.Ages (g.freshNode label draws).2 := by
  unfold freshNode
  split
  · exact .refl g
  · exact g.ages_insertNode _ label

theorem ages_freshEdge (g : Graph) (r : Relation) (label : String) (s d : NodeHandle)
    (draws : List Uuid) : g.Ages (g.freshEdge r label s d draws).2 := by
  unfold freshEdge
  split
  · exact .refl g
  · split
    · exact .refl g
    · exact g.ages_insertEdge r _ label s d

theorem ages_eraseEdge (g : Graph) (h : EdgeHandle) : g.Ages (g.eraseEdge h).2 := by
  cases he : g.edge? h with
  | none => rw [eraseEdge_of_none he]; exact .refl g
  | some e =>
    rw [eraseEdge_of_some he]
    exact ⟨ages_modify_modify _ e.source e.destination (Node.id_unlinkOut h) (Node.id_unlinkIn h),
      g.edgeSlots.ages_free h.slot⟩

theorem ages_eraseEdges (g : Graph) (hs : List EdgeHandle) : g.Ages (g.eraseEdges hs).2 := by
  induction hs generalizing g with
  | nil => exact .refl g
  | cons h hs ih =>
    have hfirst := g.ages_eraseEdge h
    unfold eraseEdges
    split
    · next heq => rw [heq] at hfirst; exact hfirst.trans (ih _)
    · next heq => rw [heq] at hfirst; exact hfirst

theorem ages_eraseNode (g : Graph) (h : NodeHandle) : g.Ages (g.eraseNode h).2 := by
  unfold eraseNode
  split
  · exact .refl g
  · next before _ =>
    have hedges := g.ages_eraseEdges (incidentEdges before)
    split
    · next heq => rw [heq] at hedges; exact hedges
    · next heq =>
      rw [heq] at hedges
      split
      · exact hedges
      · exact hedges.trans ⟨Arena.ages_free _ h.slot, .refl _ _⟩

theorem ages_clone (g : Graph) (id : GraphId) : g.Ages (g.clone id) :=
  ⟨Arena.ages_map (f := fun n : Node => { n with graph := id }) (fun _ => rfl) _,
    Arena.ages_map (f := fun e : Edge => { e with graph := id }) (fun _ => rfl) _⟩

end Graph

namespace Operation

theorem apply_ages (op : Operation) (g : Graph) : g.Ages (op.apply g).2 := by
  cases op with
  | putNode id label => exact g.ages_putNode id label
  | freshNode label draws => exact g.ages_freshNode label draws
  | putEdge r id label s d => exact g.ages_putEdge r id label s d
  | freshEdge r label s d draws => exact g.ages_freshEdge r label s d draws
  | eraseNode h => exact g.ages_eraseNode h
  | eraseEdge h => exact g.ages_eraseEdge h
  | updateNode h e =>
    simp only [apply, answer, Graph.updateNode]
    split
    · exact g.ages_modifyNode h fun n => (n.edit_redraws e).1.id
    · exact .refl g
  | updateEdge h e =>
    simp only [apply, answer, Graph.updateEdge]
    split
    · exact g.ages_modifyEdge h fun edge => edge.fixed_edit e
    · exact .refl g
  | editNode h edits => exact g.ages_modifyNode h fun n => (n.editAll_redraws edits).1.id
  | editEdge h edits => exact g.ages_modifyEdge h fun e => e.fixed_editAll edits
  | clear => exact ⟨g.nodeSlots.ages_clear, g.edgeSlots.ages_clear⟩
  | clone id => exact g.ages_clone id

theorem run_ages (ops : List Operation) (g : Graph) : g.Ages (run ops g).2 := by
  induction ops generalizing g with
  | nil => exact .refl g
  | cons op ops ih => exact (op.apply_ages g).trans (ih _)

end Operation

namespace Graph

variable {g g' : Graph}

def Issued (g : Graph) (h : NodeHandle) : Prop := h.slot < g.nodeSlots.size

theorem issued_of_hasNode {h : NodeHandle} (hh : g.hasNode h = true) : g.Issued h := by
  obtain ⟨n, hn⟩ := hasNode_iff.mp hh
  exact slot_lt_of_node? hn

theorem Ages.issued (hages : g.Ages g') {h : NodeHandle} (hh : g.Issued h) : g'.Issued h :=
  Nat.lt_of_lt_of_le hh hages.nodes.size_le

/-- A node that is there was there at all times since its handle was given out. -/
theorem Ages.hasNode (hages : g.Ages g') {h : NodeHandle} (hissued : g.Issued h)
    (hh : g'.hasNode h = true) : g.hasNode h = true := by
  obtain ⟨n, hn⟩ := hasNode_iff.mp hh
  have hid : (g'.nodeSlots.get? h.slot).map Node.id = some n.id := by
    rw [show g'.nodeSlots.get? h.slot = some n from hn]
    rfl
  obtain ⟨m, hm, -⟩ := Option.map_eq_some_iff.mp (hages.nodes.kept h.slot n.id hissued hid)
  exact hasNode_iff.mpr ⟨m, hm⟩

end Graph

end Multidigraph
