import Multidigraph.Proofs.Removal

namespace Multidigraph

/-- Why no edge can run between two nodes: one of them is not there. The source is named first. -/
inductive Graph.Unlinkable (g : Graph) (s d : NodeHandle) : Refusal → Prop
  | source : g.hasNode s = false → g.Unlinkable s d (.sourceAbsent s)
  | destination : g.hasNode s = true → g.hasNode d = false → g.Unlinkable s d (.destinationAbsent d)

/-- Which errors operations are to end in. -/
inductive Operation.Rejected (g : Graph) : Operation → GraphError → Prop
  | putEdge {r : Relation} {id label : String} {s d : NodeHandle} {refusal : Refusal} :
    g.Unlinkable s d refusal → Rejected g (.putEdge r id label s d) (.invalidArgument refusal)
  | clash {r : Relation} {label : String} {s d : NodeHandle} {k : EdgeHandle} {e : Edge} :
    g.hasNode s = true → g.hasNode d = true → g.edge? k = some e → e.relation.name ≠ r.name →
    Rejected g (.putEdge r e.id label s d)
      (.invalidArgument (.relationClash e.id e.relation.name r.name))
  | freshEdge {r : Relation} {label : String} {s d : NodeHandle} {draws : List Uuid}
      {refusal : Refusal} :
    g.Unlinkable s d refusal →
    Rejected g (.freshEdge r label s d draws) (.invalidArgument refusal)
  | eraseNode {h : NodeHandle} :
    g.hasNode h = false → Rejected g (.eraseNode h) (.nodeNotFound h.text)
  | updateNode {h : NodeHandle} {edit : Node.Edit} :
    g.hasNode h = false → Rejected g (.updateNode h edit) (.nodeNotFound h.text)
  | eraseEdge {k : EdgeHandle} :
    g.hasEdge k = false → Rejected g (.eraseEdge k) (.edgeNotFound k.text)
  | updateEdge {k : EdgeHandle} {edit : Edge.Edit} :
    g.hasEdge k = false → Rejected g (.updateEdge k edit) (.edgeNotFound k.text)

namespace Graph

variable {g g' : Graph} {error : GraphError} {s d : NodeHandle}

theorem checkEndpoints_eq_error_iff :
    g.checkEndpoints s d = .error error ↔
      ∃ refusal, g.Unlinkable s d refusal ∧ error = .invalidArgument refusal := by
  constructor
  · intro h
    unfold checkEndpoints at h
    split at h
    · next hs =>
      cases h
      exact ⟨_, .source (by simpa using hs), rfl⟩
    · next hs =>
      split at h
      · next hd =>
        cases h
        exact ⟨_, .destination (by simpa using hs) (by simpa using hd), rfl⟩
      · cases h
  · rintro ⟨refusal, hrefusal, rfl⟩
    cases hrefusal with
    | source hs => simp [checkEndpoints, hs]
    | destination hs hd => simp [checkEndpoints, hs, hd]

theorem checkEndpoints_of_hasNode (hs : g.hasNode s = true) (hd : g.hasNode d = true) :
    g.checkEndpoints s d = .ok () := by
  simp [checkEndpoints, hs, hd]

theorem WellFormed.edge?_of_edgeHandle? (hg : g.WellFormed) {id : String} {k : EdgeHandle}
    (hk : g.edgeHandle? id = some k) : ∃ e, g.edge? k = some e ∧ e.id = id :=
  Option.map_eq_some_iff.mp ((hg.edgeIds id k).mp hk)

theorem WellFormed.putEdge_eq_error_iff (hg : g.WellFormed) {r : Relation} {id label : String} :
    g.putEdge r id label s d = (.error error, g') ↔
      Operation.Rejected g (.putEdge r id label s d) error ∧ g' = g := by
  constructor
  · intro h
    unfold Graph.putEdge at h
    split at h
    · next hends =>
      cases h
      obtain ⟨refusal, hrefusal, rfl⟩ := checkEndpoints_eq_error_iff.mp hends
      exact ⟨.putEdge hrefusal, rfl⟩
    · next hends =>
      obtain ⟨hs, hd⟩ := checkEndpoints_eq_ok hends
      split at h
      · cases h
      · next k hk =>
        obtain ⟨e, he, rfl⟩ := hg.edge?_of_edgeHandle? hk
        rw [he] at h
        dsimp only at h
        split at h
        · cases h
        · next hname =>
          cases h
          exact ⟨.clash hs hd he (by simpa using hname), rfl⟩
  · rintro ⟨hrejected, rfl⟩
    cases hrejected with
    | putEdge hrefusal =>
      simp only [Graph.putEdge, checkEndpoints_eq_error_iff.mpr ⟨_, hrefusal, rfl⟩]
    | @clash _ _ _ _ k e hs hd he hname =>
      have hk : g'.edgeHandle? e.id = some k := (hg.edgeIds e.id k).mpr (by simp [edgeId?, he])
      have hrelation : (e.relation == r) = false := by
        rwa [← Bool.not_eq_true, Relation.beq_iff_name]
      simp [Graph.putEdge, checkEndpoints_of_hasNode hs hd, hk, he, hrelation]

theorem freshEdge_eq_error_iff {r : Relation} {label : String} {draws : List Uuid} :
    g.freshEdge r label s d draws = (.error error, g') ↔
      Operation.Rejected g (.freshEdge r label s d draws) error ∧ g' = g := by
  constructor
  · intro h
    unfold freshEdge at h
    split at h
    · next hends =>
      cases h
      obtain ⟨refusal, hrefusal, rfl⟩ := checkEndpoints_eq_error_iff.mp hends
      exact ⟨.freshEdge hrefusal, rfl⟩
    · split at h <;> cases h
  · rintro ⟨hrejected, rfl⟩
    cases hrejected with
    | freshEdge hrefusal =>
      simp only [freshEdge, checkEndpoints_eq_error_iff.mpr ⟨_, hrefusal, rfl⟩]

theorem eq_error_iff_of_live {α : Type} {result : Changed (Except GraphError α)}
    {rejected : GraphError → Prop} (live : Bool) (notFound : GraphError)
    (hlive : live = true → ∃ a, result.1 = .ok a)
    (hgone : live = false → result = (.error notFound, g))
    (hrejected : ∀ e, rejected e ↔ live = false ∧ e = notFound) :
    result = (.error error, g') ↔ rejected error ∧ g' = g := by
  rw [hrejected]
  cases live with
  | true =>
    obtain ⟨a, ha⟩ := hlive rfl
    constructor
    · rintro rfl
      cases ha
    · rintro ⟨⟨hfalse, -⟩, -⟩
      cases hfalse
  | false =>
    rw [hgone rfl]
    constructor
    · intro heq
      cases heq
      exact ⟨⟨rfl, rfl⟩, rfl⟩
    · rintro ⟨⟨-, rfl⟩, rfl⟩
      rfl

theorem WellFormed.eraseNode_eq_error_iff (hg : g.WellFormed) {h : NodeHandle} :
    g.eraseNode h = (.error error, g') ↔
      Operation.Rejected g (.eraseNode h) error ∧ g' = g := by
  refine eq_error_iff_of_live (g.hasNode h) (.nodeNotFound h.text)
    (fun hlive => ?_) (fun hgone => ?_) fun e => ?_
  · obtain ⟨n, hn⟩ := hasNode_iff.mp hlive
    exact ⟨n.bare, by rw [hg.eraseNode_eq hn]⟩
  · have hn : g.node? h = none := by simpa [hasNode] using hgone
    simp [Graph.eraseNode, hn]
  · constructor
    · intro hrejected
      cases hrejected with
      | eraseNode hgone => exact ⟨hgone, rfl⟩
    · rintro ⟨hgone, rfl⟩
      exact .eraseNode hgone

theorem eraseEdge_eq_error_iff {k : EdgeHandle} :
    g.eraseEdge k = (.error error, g') ↔
      Operation.Rejected g (.eraseEdge k) error ∧ g' = g := by
  refine eq_error_iff_of_live (g.hasEdge k) (.edgeNotFound k.text)
    (fun hlive => ?_) (fun hgone => ?_) fun e => ?_
  · obtain ⟨e, he⟩ := hasEdge_iff.mp hlive
    exact ⟨e, by rw [eraseEdge_of_some he]⟩
  · exact eraseEdge_of_none (by simpa [hasEdge] using hgone)
  · constructor
    · intro hrejected
      cases hrejected with
      | eraseEdge hgone => exact ⟨hgone, rfl⟩
    · rintro ⟨hgone, rfl⟩
      exact .eraseEdge hgone

theorem updateNode_eq_error_iff {h : NodeHandle} {edit : Node.Edit} :
    g.updateNode h edit = (.error error, g') ↔
      Operation.Rejected g (.updateNode h edit) error ∧ g' = g := by
  refine eq_error_iff_of_live (g.hasNode h) (.nodeNotFound h.text)
    (fun hlive => ⟨(), by simp [updateNode, hlive]⟩) (fun hgone => by simp [updateNode, hgone])
    fun e => ?_
  constructor
  · intro hrejected
    cases hrejected with
    | updateNode hgone => exact ⟨hgone, rfl⟩
  · rintro ⟨hgone, rfl⟩
    exact .updateNode hgone

theorem updateEdge_eq_error_iff {k : EdgeHandle} {edit : Edge.Edit} :
    g.updateEdge k edit = (.error error, g') ↔
      Operation.Rejected g (.updateEdge k edit) error ∧ g' = g := by
  refine eq_error_iff_of_live (g.hasEdge k) (.edgeNotFound k.text)
    (fun hlive => ⟨(), by simp [updateEdge, hlive]⟩) (fun hgone => by simp [updateEdge, hgone])
    fun e => ?_
  constructor
  · intro hrejected
    cases hrejected with
    | updateEdge hgone => exact ⟨hgone, rfl⟩
  · rintro ⟨hgone, rfl⟩
    exact .updateEdge hgone

end Graph

namespace Operation

variable {g g' : Graph} {error : GraphError}

theorem answer_ofExcept_eq_failed_iff {α : Type} {f : α → Outcome} (hf : ∀ a, f a ≠ .failed error)
    {result : Graph.Changed (Except GraphError α)} :
    answer (.ofExcept f) result = (.failed error, g') ↔ result = (.error error, g') := by
  obtain ⟨outcome, left⟩ := result
  cases outcome with
  | ok a => simp [answer, Outcome.ofExcept, hf]
  | error e => simp [answer, Outcome.ofExcept]

theorem answer_ne_failed {α : Type} {f : α → Outcome} (hf : ∀ a, f a ≠ .failed error)
    (result : Graph.Changed α) : answer f result ≠ (.failed error, g') := by
  intro h
  exact hf result.1 (congrArg Prod.fst h)

theorem ofOption_ne_failed {α : Type} {f : α → Outcome} (hf : ∀ a, f a ≠ .failed error)
    (a? : Option α) : Outcome.ofOption f a? ≠ .failed error := by
  cases a? with
  | none => exact Outcome.noConfusion
  | some a => exact hf a

theorem apply_eq_failed_iff (hg : g.WellFormed) (op : Operation) :
    op.apply g = (.failed error, g') ↔ Rejected g op error ∧ g' = g := by
  have never : ∀ op, op.apply g ≠ (.failed error, g') → ¬ Rejected g op error →
      (op.apply g = (.failed error, g') ↔ Rejected g op error ∧ g' = g) :=
    fun op happly hrejected => iff_of_false happly fun h => hrejected h.1
  cases op with
  | putNode id label => exact never _ (answer_ne_failed nofun _) nofun
  | freshNode label draws => exact never _ (answer_ne_failed (ofOption_ne_failed nofun) _) nofun
  | putEdge r id label s d =>
    exact (answer_ofExcept_eq_failed_iff nofun).trans hg.putEdge_eq_error_iff
  | freshEdge r label s d draws =>
    exact (answer_ofExcept_eq_failed_iff (ofOption_ne_failed nofun)).trans
      Graph.freshEdge_eq_error_iff
  | eraseNode h => exact (answer_ofExcept_eq_failed_iff nofun).trans hg.eraseNode_eq_error_iff
  | eraseEdge k => exact (answer_ofExcept_eq_failed_iff nofun).trans Graph.eraseEdge_eq_error_iff
  | updateNode h e =>
    exact (answer_ofExcept_eq_failed_iff nofun).trans Graph.updateNode_eq_error_iff
  | updateEdge k e =>
    exact (answer_ofExcept_eq_failed_iff nofun).trans Graph.updateEdge_eq_error_iff
  | editNode h edits =>
    exact never _ (answer_ne_failed (ofOption_ne_failed nofun) (g.editNode h edits)) nofun
  | editEdge k edits =>
    exact never _ (answer_ne_failed (ofOption_ne_failed nofun) (g.editEdge k edits)) nofun
  | clear => exact never _ nofun nofun
  | clone id => exact never _ nofun nofun

/-- In any graph, an operation fails if and only if it is to be rejected, with the error for that,
and it leaves the graph as it was. What could still go wrong later does not: the registry finds no
edge that is not there, and when the edges at a node are taken out none is missing, nor is the
node. -/
theorem failures_ofHistory (id : GraphId) (ops : List Operation) :
    let g := Graph.ofHistory id ops
    (∀ (op : Operation) (error : GraphError) (g' : Graph),
      op.apply g = (.failed error, g') ↔ Rejected g op error ∧ g' = g) ∧
    (∀ (s : String) (k : EdgeHandle), g.edgeHandle? s = some k → g.hasEdge k = true) ∧
    ∀ (h : NodeHandle) (n : Node), g.node? h = some n →
      ∃ left, g.eraseEdges (Graph.incidentEdges n) = (.ok (), left) ∧ left.hasNode h = true := by
  intro g
  have hg : g.WellFormed := Graph.ofHistory_wellFormed id ops
  refine ⟨fun op error g' => apply_eq_failed_iff hg op, fun s k hk => ?_, fun h n hn => ?_⟩
  · obtain ⟨e, he, -⟩ := hg.edge?_of_edgeHandle? hk
    exact Graph.hasEdge_iff.mpr ⟨e, he⟩
  · exact ⟨_, hg.eraseEdges_incidentEdges hn,
      Graph.hasNode_iff.mpr ⟨_, Graph.node?_without_incidentEdges hn⟩⟩

end Operation

end Multidigraph
