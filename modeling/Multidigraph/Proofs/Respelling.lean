import Mathlib.Data.List.Forall2
import Multidigraph.Proofs.Spelling

namespace Multidigraph

section Spelling

inductive Relation.Respells : Relation → Relation → Prop where
  | same (r : Relation) : Respells r r
  | spellOut : Respells .default (.named "DEFAULT")
  | shorten : Respells (.named "DEFAULT") .default

inductive Filter.Respells : Filter → Filter → Prop where
  | same (f : Filter) : Respells f f
  | hasOutRelation {r s : Relation} : r.Respells s →
      Respells (.hasOutRelation r) (.hasOutRelation s)

structure Query.Respells (q q' : Query) : Prop where
  filters : List.Forall₂ Filter.Respells q.filters q'.filters
  limit? : q.limit? = q'.limit?

/-- The keys of the relation colours may be spelled differently, each for itself. -/
structure Dot.Style.Respells (style style' : Style) : Prop where
  categoryColors : style.categoryColors = style'.categoryColors
  relationColors : List.Forall₂ (fun (r, color) (r', color') => r.Respells r' ∧ color = color')
    style.relationColors style'.relationColors
  rankDirection : style.rankDirection = style'.rankDirection
  showWeights : style.showWeights = style'.showWeights

inductive Operation.Respells : Operation → Operation → Prop where
  | same (op : Operation) : Respells op op
  | putEdge {r s : Relation} (id label : String) (source destination : NodeHandle) :
      r.Respells s →
        Respells (.putEdge r id label source destination) (.putEdge s id label source destination)
  | freshEdge {r s : Relation} (label : String) (source destination : NodeHandle)
      (draws : List Uuid) : r.Respells s →
        Respells (.freshEdge r label source destination draws)
          (.freshEdge s label source destination draws)

inductive Question.Respells : Question → Question → Prop where
  | same (q : Question) : Respells q q
  | query {q q' : Query} : q.Respells q' → Respells (.query q) (.query q')
  | queryCount {q q' : Query} : q.Respells q' → Respells (.queryCount q) (.queryCount q')
  | queryAny {q q' : Query} : q.Respells q' → Respells (.queryAny q) (.queryAny q')
  | dot {style style' : Dot.Style} : style.Respells style' → Respells (.dot style) (.dot style')

inductive Request.Respells : Request → Request → Prop where
  | change {op op' : Operation} : op.Respells op' → Respells (.change op) (.change op')
  | ask {q q' : Question} : q.Respells q' → Respells (.ask q) (.ask q')

structure Edge.Alike (e f : Edge) : Prop where
  id : e.id = f.id
  label : e.label = f.label
  weight : e.weight = f.weight
  relation : (e.relation == f.relation) = true
  source : e.source = f.source
  destination : e.destination = f.destination
  graph : e.graph = f.graph

inductive Reply.Alike : Reply → Reply → Prop where
  | same (r : Reply) : Alike r r
  | edge {e f : Edge} : e.Alike f → Alike (.outcome (.edge e)) (.outcome (.edge f))
  | edges {es fs : List (EdgeHandle × Edge)} :
      List.Forall₂ (fun (h, e) (k, f) => h = k ∧ e.Alike f) es fs → Alike (.edges es) (.edges fs)

end Spelling

theorem map_eq_map_iff_forall₂ {α β : Type} {f : α → β} {xs ys : List α} :
    xs.map f = ys.map f ↔ List.Forall₂ (fun x y => f x = f y) xs ys := by
  rw [← List.forall₂_eq_eq_eq, List.forall₂_map_left_iff, List.forall₂_map_right_iff]

section Respells

theorem Relation.respells_iff {r s : Relation} : r.Respells s ↔ r.name = s.name := by
  constructor
  · rintro (_ | _ | _) <;> rfl
  · intro h
    cases r with
    | default =>
      cases s with
      | default => exact .same _
      | named t => cases h; exact .spellOut
    | named t =>
      cases s with
      | default => cases h; exact .shorten
      | named u => cases h; exact .same _

theorem Relation.Respells.plain_eq {r s : Relation} (h : r.Respells s) : r.plain = s.plain :=
  congrArg ofName (respells_iff.mp h)

theorem Filter.Respells.plain_eq {f f' : Filter} (h : f.Respells f') : f.plain = f'.plain := by
  cases h with
  | same => rfl
  | hasOutRelation h => exact congrArg Filter.hasOutRelation h.plain_eq

theorem Query.Respells.plain_eq {q q' : Query} (h : q.Respells q') : q.plain = q'.plain := by
  have hfilters := map_eq_map_iff_forall₂.mpr (h.filters.imp fun _ _ => Filter.Respells.plain_eq)
  simp only [plain, hfilters, h.limit?]

theorem Dot.Style.Respells.plain_eq {style style' : Style} (h : style.Respells style') :
    style.plain = style'.plain := by
  obtain ⟨hcategories, hrelations, hdirection, hweights⟩ := h
  have hcolors : style.relationColors.map (fun (r, color) => (r.plain, color)) =
      style'.relationColors.map fun (r, color) => (r.plain, color) :=
    map_eq_map_iff_forall₂.mpr
      (hrelations.imp fun _ _ hentry => Prod.ext hentry.1.plain_eq hentry.2)
  simp only [plain, hcategories, hcolors, hdirection, hweights]

theorem Operation.Respells.plain_eq {op op' : Operation} (h : op.Respells op') :
    op.plain = op'.plain := by
  cases h with
  | same => rfl
  | putEdge id label source destination h | freshEdge label source destination draws h =>
    simp only [plain, h.plain_eq]

theorem Question.Respells.plain_eq {q q' : Question} (h : q.Respells q') : q.plain = q'.plain := by
  cases h with
  | same => rfl
  | query h | queryCount h | queryAny h | dot h => simp only [plain, h.plain_eq]

theorem Request.Respells.plain_eq {r r' : Request} (h : r.Respells r') : r.plain = r'.plain := by
  cases h with
  | change h | ask h => simp only [plain, h.plain_eq]

end Respells

section Alike

namespace Edge

variable {e f : Edge}

theorem alike_of_plain_eq (h : e.plain = f.plain) : e.Alike f := by
  simp only [plain, Edge.mk.injEq, Relation.plain_eq_plain_iff] at h
  obtain ⟨hid, hlabel, hweight, hrelation, hsource, hdestination, hgraph⟩ := h
  exact ⟨hid, hlabel, hweight, hrelation, hsource, hdestination, hgraph⟩

theorem Alike.written (h : e.Alike f) : e.text = f.text ∧ e.json = f.json := by
  obtain ⟨hid, hlabel, hweight, hrelation, hsource, hdestination, hgraph⟩ := h
  rw [Relation.beq_iff_name] at hrelation
  simp only [text, json, hid, hlabel, hweight, hrelation, hsource, hdestination, hgraph, and_self]

end Edge

theorem Outcome.alike_of_plain_eq {o o' : Outcome} (h : o.plain = o'.plain) :
    Reply.Alike (.outcome o) (.outcome o') := by
  cases o with
  | edge e =>
    cases o' with
    | edge f => exact .edge (Edge.alike_of_plain_eq (Outcome.edge.inj h))
    | _ => cases h
  | _ =>
    cases o' <;> cases h
    exact .same _

theorem Reply.alike_of_plain_eq {r r' : Reply} (h : r.plain = r'.plain) : r.Alike r' := by
  cases r with
  | outcome o =>
    cases r' with
    | outcome o' => exact Outcome.alike_of_plain_eq (Reply.outcome.inj h)
    | _ => cases h
  | edges es =>
    cases r' with
    | edges fs =>
      refine .edges ((map_eq_map_iff_forall₂.mp (Reply.edges.inj h)).imp fun _ _ hentry => ?_)
      obtain ⟨hhandle, hedge⟩ := Prod.mk.inj hentry
      exact ⟨hhandle, Edge.alike_of_plain_eq hedge⟩
    | _ => cases h
  | _ =>
    cases r' <;> cases h
    exact .same _

end Alike

/-- Scripts that differ in the spelling of the default relation only are answered alike. -/
theorem Request.run_alike {rs rs' : List Request} (h : List.Forall₂ Respells rs rs') (g : Graph) :
    List.Forall₂ Reply.Alike (run rs g).1 (run rs' g).1 := by
  have hscript : rs.map plain = rs'.map plain :=
    map_eq_map_iff_forall₂.mpr (h.imp fun _ _ => Respells.plain_eq)
  have hreplies : (run rs g).1.map Reply.plain = (run rs' g).1.map Reply.plain := by
    have hrun := congrArg (fun rs => (run rs g.plain).1) hscript
    simpa only [run_plain, Prod.map_fst] using hrun
  exact (map_eq_map_iff_forall₂.mp hreplies).imp fun _ _ => Reply.alike_of_plain_eq

/-- An edge is made under one spelling, asked for again under the other, refused under a third
relation, found, drawn, written and taken out. -/
theorem Request.run_alike_edge :
    let script (r s t : Relation) : List Request := [.change (.putNode "a" ""),
      .change (.putNode "b" ""), .change (.putEdge r "ab" "x" ⟨0⟩ ⟨1⟩),
      .change (.putEdge s "ab" "y" ⟨0⟩ ⟨1⟩), .change (.putEdge (.named "uses") "ab" "z" ⟨0⟩ ⟨1⟩),
      .ask (.query { filters := [.hasOutRelation t] }),
      .ask (.dot { relationColors := [(s, "red")] }), .ask (.edgeJson ⟨0⟩),
      .change (.eraseEdge ⟨0⟩)]
    let rs := script .default (.named "DEFAULT") .default
    let rs' := script (.named "DEFAULT") .default (.named "DEFAULT")
    let g := Graph.empty ⟨⟨0⟩⟩
    List.Forall₂ Respells rs rs' ∧ List.Forall₂ Reply.Alike (run rs g).1 (run rs' g).1 ∧
      (run rs g).1[5]? = some (.nodeHandles [⟨0⟩]) := by
  intro script rs rs' g
  have hsame : ∀ op, (Request.change op).Respells (.change op) := fun op => .change (.same op)
  have hput : ∀ id label s d {r r'}, r.Respells r' →
      (Request.change (.putEdge r id label s d)).Respells (.change (.putEdge r' id label s d)) :=
    fun id label s d _ _ h => .change (.putEdge id label s d h)
  have hrespells : List.Forall₂ Respells rs rs' := by
    refine .cons (hsame _) (.cons (hsame _) (.cons (hput _ _ _ _ .spellOut)
      (.cons (hput _ _ _ _ .shorten) (.cons (hsame _) (.cons ?_ (.cons ?_
        (.cons (.ask (.same _)) (.cons (hsame _) .nil))))))))
    · exact .ask (.query ⟨.cons (.hasOutRelation .spellOut) .nil, rfl⟩)
    · exact .ask (.dot ⟨rfl, .cons ⟨.shorten, rfl⟩ .nil, rfl, rfl⟩)
  exact ⟨hrespells, run_alike hrespells g, rfl⟩

end Multidigraph
