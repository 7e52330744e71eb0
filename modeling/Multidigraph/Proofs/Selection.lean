import Mathlib.Data.Set.Card
import Multidigraph.Proofs.History
import Multidigraph.Proofs.Listing
import Multidigraph.Query

namespace Multidigraph

namespace LabelPattern

/-- Whether the body of a pattern stands in a label, at the start or the end if it is tied. -/
def StandsIn (p : LabelPattern) (label : List Char) : Prop :=
  ∃ before after, label = before ++ p.body ++ after ∧
    (p.atStart = true → before = []) ∧ (p.atEnd = true → after = [])

theorem accepts_iff (p : LabelPattern) (label : List Char) :
    p.accepts label = true ↔ p.StandsIn label := by
  obtain ⟨atStart, atEnd, body⟩ := p
  cases atStart <;> cases atEnd
  · simp [accepts, StandsIn, Text.occursIn_iff_infix, List.IsInfix, @eq_comm _ label]
  · simp [accepts, StandsIn, List.IsSuffix, @eq_comm _ label]
  · simp [accepts, StandsIn, List.IsPrefix, @eq_comm _ label]
  · simp [accepts, StandsIn]

end LabelPattern

theorem Lists.ncard_eq {ks : List EdgeHandle} {p : EdgeHandle → Prop} (h : Lists ks p) :
    {k | p k}.ncard = ks.length := by
  have hset : {k | p k} = ks.toFinset := by
    ext k
    simp [h.mem_iff]
  rw [hset, Set.ncard_coe_finset, List.toFinset_card_of_nodup h.nodup]

namespace Filter

/-- What a filter asks of the node with a handle. Degrees and relations are those of the edges that
are there. -/
def Holds (g : Graph) (h : NodeHandle) (n : Node) : Filter → Prop
  | labelContains text => (Text.lower text).toList <:+: (Text.lower n.label).toList
  | labelIs label => n.label = label
  | labelMatches pattern => (LabelPattern.ofChars pattern.toList).StandsIn n.label.toList
  | idStartsWith text => text.toList <+: n.id.toList
  | inCategory c => c ∈ n.categories
  | minOutDegree m => m ≤ {k | g.source? k = some h}.ncard
  | minInDegree m => m ≤ {k | g.destination? k = some h}.ncard
  | hasOutRelation r => ∃ k e, g.edge? k = some e ∧ e.source = h ∧ e.relation.name = r.name
  | satisfies p => p n = true

variable {g : Graph} {h : NodeHandle} {n : Node}

theorem passes_iff (hg : g.WellFormed) (hn : g.node? h = some n) (f : Filter) :
    f.passes g n = true ↔ f.Holds g h n := by
  have hfits := hg.nodes h n hn
  cases f with
  | labelContains text => exact Text.occursIn_iff_infix _ _
  | labelIs label => exact decide_eq_true_iff
  | labelMatches pattern => exact LabelPattern.accepts_iff _ _
  | idStartsWith text => exact List.isPrefixOf_iff_prefix
  | inCategory c => exact List.contains_iff_mem
  | minOutDegree m => simp only [passes, Holds, hfits.outEdges.ncard_eq, decide_eq_true_eq]
  | minInDegree m => simp only [passes, Holds, hfits.inEdges.ncard_eq, decide_eq_true_eq]
  | hasOutRelation r => exact hg.any_outEdges_iff hn r
  | satisfies p => exact Iff.rfl

end Filter

namespace Query

inductive Call where
  | filter (f : Filter)
  | limit (n : Nat)

def Call.limit? : Call → Option Nat
  | filter _ => none
  | limit n => some n

def call (q : Query) : Call → Query
  | .filter f => q.add f
  | .limit n => q.upTo n

def ofCalls (calls : List Call) : Query := calls.foldl call {}

variable {calls calls' : List Call} {g : Graph} {h : NodeHandle} {n : Node}

theorem ofCalls_append_singleton (calls : List Call) (c : Call) :
    ofCalls (calls ++ [c]) = (ofCalls calls).call c := by
  simp [ofCalls]

theorem mem_filters_ofCalls {f : Filter} : f ∈ (ofCalls calls).filters ↔ .filter f ∈ calls := by
  induction calls using List.reverseRecOn with
  | nil => simp [ofCalls]
  | append_singleton calls c ih =>
    rw [ofCalls_append_singleton]
    cases c with
    | filter f' => simp [call, add, ih]
    | limit m => simp [call, upTo, ih]

theorem limit?_ofCalls (calls : List Call) :
    (ofCalls calls).limit? = (calls.filterMap Call.limit?).getLast? := by
  induction calls using List.reverseRecOn with
  | nil => rfl
  | append_singleton calls c ih =>
    rw [ofCalls_append_singleton]
    cases c with
    | filter f => simp [call, add, Call.limit?, ih]
    | limit m => simp [call, upTo, Call.limit?]

theorem accepts_ofCalls_iff (hg : g.WellFormed) (hn : g.node? h = some n) :
    (ofCalls calls).accepts g n = true ↔ ∀ f, Call.filter f ∈ calls → f.Holds g h n := by
  simp only [accepts, List.all_eq_true, mem_filters_ofCalls, Filter.passes_iff hg hn]

theorem accepts_ofCalls_congr (hcalls : ∀ f, Call.filter f ∈ calls' ↔ Call.filter f ∈ calls) :
    (ofCalls calls').accepts = (ofCalls calls).accepts := by
  funext g n
  rw [Bool.eq_iff_iff]
  simp only [accepts, List.all_eq_true, mem_filters_ofCalls, hcalls]

theorem run_eq_take (q : Query) (g : Graph) :
    q.run g = (q.hits g).take (q.limit?.getD (q.hits g).length) := by
  cases hlimit : q.limit? <;> simp [run, hlimit]

end Query

theorem listing_ascending {H E : Type} {ids : Registry H} {find : H → Option E} {idOf : E → String}
    (hnames : Names (fun s => ids[s]?) fun h => (find h).map idOf) :
    (listing ids find).Pairwise fun a b => idOf a.2 < idOf b.2 := by
  have hid : ∀ p ∈ ids.toList, ∀ q, (find p.2).map (p.2, ·) = some q → idOf q.2 = p.1 := by
    intro p hp q hq
    obtain ⟨e, he, rfl⟩ := Option.map_eq_some_iff.mp hq
    have hnamed := (hnames p.1 p.2).mp (Std.ExtTreeMap.mem_toList_iff_getElem?_eq_some.mp hp)
    exact Option.some.inj ((congrArg _ he).symm.trans hnamed)
  refine List.pairwise_filterMap.mpr (ids.ordered_keys_toList.imp_of_mem ?_)
  intro p q hp hq hlt a ha b hb
  rw [hid p hp a ha, hid q hq b hb]
  exact compareOfLessAndEq_eq_lt.mp hlt

namespace Query

/-- Queries select soundly and completely. What is found are the nodes that are there and satisfy
all filters, once each and with growing ids. A query answers with the first of them, up to the limit
that was set last, or else with all of them; whether there are any and how many is told without
regard to limits. All of this depends on which filters were asked for, not on how often or in which
order. -/
theorem selection_ofHistory (id : GraphId) (history : List Operation) (calls : List Call) :
    let g := Graph.ofHistory id history
    let limit? := (calls.filterMap Call.limit?).getLast?
    ∃ found : List (NodeHandle × Node),
      (∀ h n, (h, n) ∈ found ↔
        g.node? h = some n ∧ ∀ f, Call.filter f ∈ calls → f.Holds g h n) ∧
      (found.Pairwise fun a b => a.2.id < b.2.id) ∧ (found.map Prod.fst).Nodup ∧
      (ofCalls calls).run g = (found.map Prod.fst).take (limit?.getD found.length) ∧
      (ofCalls calls).count g = found.length ∧ ((ofCalls calls).any g = true ↔ found ≠ []) ∧
      ∀ calls', (∀ f, Call.filter f ∈ calls' ↔ Call.filter f ∈ calls) →
        (ofCalls calls').count g = (ofCalls calls).count g ∧
        (ofCalls calls').any g = (ofCalls calls).any g ∧
        ((calls'.filterMap Call.limit?).getLast? = limit? →
          (ofCalls calls').run g = (ofCalls calls).run g) := by
  intro g limit?
  have hg : g.WellFormed := Graph.ofHistory_wellFormed id history
  let found := g.nodes.filter fun p => (ofCalls calls).accepts g p.2
  have hhits : (ofCalls calls).hits g = found.map Prod.fst := rfl
  refine ⟨found, fun h n => ?_, (listing_ascending hg.nodeIds).filter _, ?_, ?_, ?_, ?_,
    fun calls' hcalls => ?_⟩
  · rw [List.mem_filter, hg.mem_nodes_iff]
    exact and_congr_right fun hn => accepts_ofCalls_iff hg hn
  · exact (nodup_map_fst_listing hg.nodeIds).sublist (List.filter_sublist.map _)
  · rw [run_eq_take, hhits, limit?_ofCalls, List.length_map]
  · rw [count, hhits, List.length_map]
  · rw [any, List.any_eq_true]
    simp only [found, ne_eq, List.filter_eq_nil_iff, not_forall, not_not, exists_prop]
  · have haccepts := accepts_ofCalls_congr hcalls
    have hhits' : (ofCalls calls').hits g = (ofCalls calls).hits g := by
      simp only [hits, haccepts]
    refine ⟨by rw [count, count, hhits'], by rw [any, any, haccepts], fun hlimit => ?_⟩
    rw [run_eq_take, run_eq_take, hhits', limit?_ofCalls, limit?_ofCalls, hlimit]

/-- The nodes `b` and `a` pass: of the others `c` has lost its edge of the default relation, and the
label of `d` does not start as it should. Two limits are set, and one filter is asked for twice. -/
theorem selection_ofHistory_repeated :
    let history : List Operation := [.putNode "b" "Beta", .putNode "a" "BETA", .putNode "c" "Beta",
      .putNode "d" "two Betas", .putEdge .default "bc" "" ⟨0⟩ ⟨2⟩,
      .putEdge (.named "DEFAULT") "aa" "" ⟨1⟩ ⟨1⟩, .putEdge (.named "r") "ca" "" ⟨2⟩ ⟨1⟩,
      .putEdge .default "cb" "" ⟨2⟩ ⟨0⟩, .putEdge .default "da" "" ⟨3⟩ ⟨1⟩, .eraseEdge ⟨3⟩]
    let calls : List Call := [.limit 5, .filter (.minOutDegree 1), .filter (.labelContains "eTa"),
      .filter (.hasOutRelation .default), .filter (.labelMatches "^B"), .limit 1]
    let calls' : List Call := [.filter (.labelMatches "^B"), .filter (.hasOutRelation .default),
      .filter (.minOutDegree 1), .limit 0, .filter (.hasOutRelation .default),
      .filter (.labelContains "eTa"), .limit 1]
    let g := Graph.ofHistory ⟨⟨0⟩⟩ history
    (∀ f, Call.filter f ∈ calls' ↔ Call.filter f ∈ calls) ∧
      (calls'.filterMap Call.limit?).getLast? = (calls.filterMap Call.limit?).getLast? ∧
      (ofCalls calls').count g = (ofCalls calls).count g ∧
      (ofCalls calls').any g = (ofCalls calls).any g ∧
      (ofCalls calls').run g = (ofCalls calls).run g ∧
      (ofCalls calls).run g = [⟨1⟩] ∧ (ofCalls calls).count g = 2 ∧
      (ofCalls [.filter (.labelContains "eTa")]).run g = [⟨1⟩, ⟨0⟩, ⟨2⟩, ⟨3⟩] ∧
      (ofCalls [.filter (.labelMatches "^B")]).run g = [⟨1⟩, ⟨0⟩, ⟨2⟩] := by
  intro history calls calls' g
  have hcalls : ∀ f, Call.filter f ∈ calls' ↔ Call.filter f ∈ calls := by
    intro f
    simp only [calls, calls', List.mem_cons, List.not_mem_nil, reduceCtorEq, Call.filter.injEq]
    tauto
  obtain ⟨found, -, -, -, -, -, -, hsame⟩ := selection_ofHistory ⟨⟨0⟩⟩ history calls
  obtain ⟨hcount, hany, hrun⟩ := hsame calls' hcalls
  exact ⟨hcalls, rfl, hcount, hany, hrun rfl, by decide +kernel, by decide +kernel,
    by decide +kernel, by decide +kernel⟩

end Query

end Multidigraph
