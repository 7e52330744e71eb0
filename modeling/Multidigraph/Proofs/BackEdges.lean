import Mathlib.Data.List.Perm.Basic
import Multidigraph.Proofs.CycleSearch
import Multidigraph.Proofs.EdgeTable

open Relation

namespace Multidigraph

namespace Walk

variable {σ N ε : Type} [Ord N] [Std.TransOrd N] [DecidableEq N]

/-- The neighbours of each node in turn that are on the path, or that do not stand before the node
in the list. -/
def View.behind (v : View N) (flags : Flags) (path : Std.ExtTreeSet N) : List N → List N
  | [] => []
  | a :: later =>
    ((v.neighbours flags a).filter fun b => b ∈ path ∨ b ∈ a :: later) ++
      v.behind flags path later

namespace DepthFirst

section Behind

variable [Std.LawfulEqOrd N] {v : View N} {pre post : Visitor σ N ε} {flags : Flags}
  {path : Std.ExtTreeSet N} {p q : Progress σ N ε} {n : N} {ns left later : List N}

omit [Std.LawfulEqOrd N] in
theorem behind_cons (hn : ∀ b ∈ v.neighbours flags n, b ∉ later) :
    v.behind flags path (n :: later) =
      ((v.neighbours flags n).filter fun b => b = n ∨ b ∈ path) ++ v.behind flags path later := by
  have hhead : (v.neighbours flags n).filter (fun b => b ∈ path ∨ b ∈ n :: later) =
      (v.neighbours flags n).filter fun b => b = n ∨ b ∈ path := by
    refine List.filter_congr fun b hb => ?_
    simp [hn b hb, or_comm]
  rw [View.behind, hhead]

theorem behind_append (hleft : ∀ a ∈ left, ∀ b ∈ v.neighbours flags a, b ∉ later) :
    v.behind flags path (left ++ n :: later) =
      v.behind flags (path.insert n) left ++ v.behind flags path (n :: later) := by
  induction left with
  | nil => rfl
  | cons a left ih =>
    have hhead : (v.neighbours flags a).filter (fun b => b ∈ path ∨ b ∈ a :: (left ++ n :: later)) =
        (v.neighbours flags a).filter fun b => b ∈ path.insert n ∨ b ∈ a :: left := by
      refine List.filter_congr fun b hb => decide_eq_decide.mpr ?_
      have hlater := hleft a List.mem_cons_self b hb
      simp only [mem_insert_iff, List.mem_cons, List.mem_append, hlater, or_false]
      tauto
    rw [List.cons_append, View.behind, View.behind, hhead,
      ih fun a ha => hleft a (List.mem_cons_of_mem _ ha), List.append_assoc]

theorem Progress.cycles_enter_perm (hgo : (p.call pre flags n).stopped = false)
    (hpath : ∀ m, m ∈ path → m ∈ p.visited) :
    (p.enter v pre flags (path.insert n) n).status.cycles.toList.Perm
      (p.status.cycles.toList ++ (v.neighbours flags n).filter fun b => b = n ∨ b ∈ path) := by
  have hfound : ∀ b, ((p.visited.insert n).contains b && (path.insert n).contains b) =
      decide (b = n ∨ b ∈ path) := by
    intro b
    rw [Bool.eq_iff_iff, Bool.and_eq_true, decide_eq_true_iff, ← Std.ExtTreeSet.mem_iff_contains,
      ← Std.ExtTreeSet.mem_iff_contains, mem_insert_iff, mem_insert_iff, and_iff_right_iff_imp]
    exact Or.imp_right (hpath b)
  simp only [cycles_enter, hgo, Bool.false_eq_true, if_false, hfound, List.filter_reverse]
  exact List.Perm.append_left _ (List.reverse_perm _)

open scoped List in
/-- A walk that goes on to its end finds cycles at the ends of the edges that lead back. -/
theorem Explores.cycles_perm (h : Explores v pre post flags path p ns left q)
    (hq : q.stopped = false) (hpath : ∀ m, m ∈ path → m ∈ p.visited) :
    q.status.cycles.toList.Perm (p.status.cycles.toList ++ v.behind flags path left) := by
  induction h with
  | halt | nil => simp [View.behind]
  | seen _ _ _ ih | absent _ _ _ _ ih => exact ih hq hpath
  | cut _ _ _ _ hs => rw [hs] at hq; cases hq
  | @visit path p n _ left left' q r _ _ hv hbelow hs hrest ihbelow ihrest =>
    have hpath' := Progress.mem_visited_enter pre v flags n hpath (path.insert n)
    have hgo := hbelow.stopped_eq_false hs
    rw [Progress.stopped_enter] at hgo
    -- what is left after `n` was not visited by then, and what a node leads to is visited
    have hnew : ∀ b ∈ left', b ∉ q.visited ∧ v.contains b = true := by
      intro b hb
      obtain ⟨hbr, hbq⟩ := (hrest.mem_left_iff hq b).mp hb
      exact ⟨hbq, ((hrest.reached hbr).resolve_left hbq).1⟩
    have hleft : ∀ a ∈ left, ∀ b ∈ v.neighbours flags a, b ∉ left' := by
      intro a ha b hab hb
      obtain ⟨hbq, hlive⟩ := hnew b hb
      obtain ⟨haq, hap⟩ := (hbelow.mem_left_iff hs a).mp ha
      exact hbq (hbelow.visited_of_leads hs ha
        ⟨((hbelow.reached haq).resolve_left hap).1, hab⟩ hlive)
    have hlast : ∀ b ∈ v.neighbours flags n, b ∉ left' := by
      intro b hb hb'
      obtain ⟨hbq, hlive⟩ := hnew b hb'
      exact hbq (hbelow.visited_of_mem hs hb hlive)
    have hmono : ∀ m, m ∈ path → m ∈ (q.call post flags n).visited := fun m hm =>
      hbelow.visited_mono (hpath' m (mem_insert_iff.mpr (.inr hm)))
    rw [behind_append hleft, behind_cons hlast]
    let found := (v.neighbours flags n).filter fun b => b = n ∨ b ∈ path
    calc r.status.cycles.toList
      _ ~ q.status.cycles.toList ++ v.behind flags path left' := by
        simpa using ihrest hq hmono
      _ ~ (p.status.cycles.toList ++ found ++ v.behind flags (path.insert n) left) ++
          v.behind flags path left' :=
        ((ihbelow hs hpath').trans
          ((Progress.cycles_enter_perm hgo hpath).append_right _)).append_right _
      _ ~ p.status.cycles.toList ++
          (v.behind flags (path.insert n) left ++ (found ++ v.behind flags path left')) := by
        simp only [List.append_assoc]
        exact .append_left _ (List.perm_append_comm_assoc _ _ _)

end Behind

end DepthFirst

omit [Ord N] [Std.TransOrd N] in
theorem idxOf_lt_idxOf_iff {earlier later : List N} {a b : N}
    (hnodup : (earlier ++ a :: later).Nodup) :
    (earlier ++ a :: later).idxOf b < (earlier ++ a :: later).idxOf a ↔ b ∈ earlier := by
  have ha : a ∉ earlier := fun ha =>
    (List.disjoint_of_nodup_append hnodup) ha List.mem_cons_self
  rw [List.idxOf_append_of_notMem ha, List.idxOf_cons_self, Nat.add_zero]
  by_cases hb : b ∈ earlier
  · rw [List.idxOf_append_of_mem hb]
    simpa [hb] using List.idxOf_lt_length_iff.mpr hb
  · rw [List.idxOf_append_of_notMem hb]
    simp [hb]

theorem View.behind_eq_flatMap {v : View N} {flags : Flags} {order : List N}
    (hnodup : order.Nodup) (hclosed : ∀ a ∈ order, ∀ b ∈ v.neighbours flags a, b ∈ order) :
    v.behind flags ∅ order = order.flatMap fun a =>
      (v.neighbours flags a).filter fun b => ¬ order.idxOf b < order.idxOf a := by
  have hrest : ∀ rest earlier, order = earlier ++ rest →
      v.behind flags ∅ rest = rest.flatMap fun a =>
        (v.neighbours flags a).filter fun b => ¬ order.idxOf b < order.idxOf a := by
    intro rest
    induction rest with
    | nil => intro earlier _; rfl
    | cons a later ih =>
      intro earlier horder
      rw [View.behind, List.flatMap_cons, ih (earlier ++ [a]) (by simp [horder])]
      congr 1
      refine List.filter_congr fun b hb => decide_eq_decide.mpr ?_
      have hmem : b ∈ earlier ∨ b ∈ a :: later := by
        rw [← List.mem_append, ← horder]
        exact hclosed a (by simp [horder]) b hb
      rw [horder] at hnodup ⊢
      have hapart : b ∈ earlier → b ∉ a :: later := fun hb hb' =>
        List.disjoint_of_nodup_append hnodup hb hb'
      rw [idxOf_lt_idxOf_iff hnodup]
      simp only [Std.ExtTreeSet.not_mem_empty, false_or]
      exact ⟨fun h h' => hapart h' h, hmem.resolve_left⟩
  exact hrest order [] rfl

end Walk

theorem flatMap_filter_perm {α κ : Type} [DecidableEq κ] {keys : List κ} (hkeys : keys.Nodup)
    (key : α → κ) (p : α → Bool) (xs : List α) :
    (keys.flatMap fun k => xs.filter fun x => key x = k ∧ p x).Perm
      (xs.filter fun x => key x ∈ keys ∧ p x) := by
  induction keys with
  | nil => simp
  | cons k keys ih =>
    obtain ⟨hk, hkeys⟩ := List.nodup_cons.mp hkeys
    rw [List.flatMap_cons]
    refine ((ih hkeys).append_left _).trans ?_
    have hsplit := List.filter_append_perm (fun x => decide (key x = k))
      (xs.filter fun x => key x ∈ k :: keys ∧ p x)
    rw [List.filter_filter, List.filter_filter] at hsplit
    convert hsplit using 2
    · refine List.filter_congr fun x _ => ?_
      by_cases hx : key x = k <;> simp [hx]
    · refine List.filter_congr fun x _ => ?_
      by_cases hx : key x = k <;> simp [hx, hk]

namespace Graph

open Walk DepthFirst

variable {g : Graph}

theorem WellFormed.mem_topologicalOrder_iff (hg : g.WellFormed) (h n : NodeHandle) :
    n ∈ g.topologicalOrder h ↔ g.hasNode h = true ∧ ReflTransGen g.Adj h n := by
  obtain ⟨q, hq, hgo, -⟩ := g.allCycles_explores h
  constructor
  · intro hn
    obtain hstart | ⟨hlive, k, hk, hreach⟩ := hq.reached ((hq.mem_left_iff hgo n).mp hn).1
    · simp [Progress.start] at hstart
    · rw [hg.leads_eq, List.mem_singleton.mp hk] at hreach
      refine ⟨?_, hreach⟩
      obtain rfl | ⟨_, hstep, -⟩ := hreach.cases_head
      · exact hlive
      · exact (hstep.hasNode hg).1
  · rintro ⟨hh, hreach⟩
    refine (hq.mem_left_iff_reaches hgo hh n).mpr ⟨hasNode_of_reflTransGen hg hh hreach, ?_⟩
    rwa [hg.leads_eq]

theorem flatMap_ends_perm {order : List NodeHandle} (hnodup : order.Nodup)
    (near far : Edge → NodeHandle) (p : NodeHandle → NodeHandle → Prop) [DecidableRel p]
    (es : List Edge) :
    (order.flatMap fun a => ((es.filter fun e => near e = a).map far).filter fun b => p a b).Perm
      ((es.filter fun e => near e ∈ order ∧ p (near e) (far e)).map far) := by
  have hparts : (order.flatMap fun a =>
        ((es.filter fun e => near e = a).map far).filter fun b => p a b) =
      (order.flatMap fun a => es.filter fun e => near e = a ∧
        decide (p (near e) (far e)) = true).map far := by
    rw [List.map_flatMap]
    refine List.flatMap_congr fun a _ => ?_
    rw [List.filter_map, List.filter_filter]
    congr 1
    refine List.filter_congr fun e _ => ?_
    by_cases hs : near e = a <;> simp [hs]
  rw [hparts]
  refine ((flatMap_filter_perm hnodup _ _ _).map _).trans (.of_eq ?_)
  simp only [decide_eq_true_iff]

theorem WellFormed.behind_perm (hg : g.WellFormed) {order : List NodeHandle}
    (hnodup : order.Nodup)
    (hclosed : ∀ a ∈ order, ∀ b ∈ (navigation.view g).neighbours {} a, b ∈ order) :
    ((navigation.view g).behind {} ∅ order).Perm
      ((g.edgeSlots.toList.filter fun e => e.source ∈ order ∧
        ¬ order.idxOf e.destination < order.idxOf e.source).map Edge.destination) := by
  rw [View.behind_eq_flatMap hnodup hclosed]
  simp only [neighbours_navigation, hg.successors_eq]
  exact flatMap_ends_perm hnodup _ _ (fun a b => ¬ order.idxOf b < order.idxOf a) _

open Classical in
/-- The topological order lists each node that can be reached once, and the nodes at which cycles
are found are the destinations of those edges between them that do not lead to an earlier node, as
often as there are such edges. -/
theorem allCycles_perm_ofHistory (id : GraphId) (ops : List Operation) (h : NodeHandle) :
    let g := ofHistory id ops
    let order := g.topologicalOrder h
    order.Nodup ∧ (∀ n, n ∈ order ↔ g.hasNode h = true ∧ ReflTransGen g.Adj h n) ∧
      (g.allCycles h).Perm
        ((g.edgeSlots.toList.filter fun e => ReflTransGen g.Adj h e.source ∧
          ¬ order.idxOf e.destination < order.idxOf e.source).map Edge.destination) := by
  intro g order
  have hg : g.WellFormed := ofHistory_wellFormed id ops
  obtain ⟨q, hq, hgo, hcycles⟩ := g.allCycles_explores h
  have hnodup : order.Nodup := hq.nodup_left hgo
  have hmem := hg.mem_topologicalOrder_iff h
  refine ⟨hnodup, hmem, ?_⟩
  have hclosed : ∀ a ∈ order, ∀ b ∈ (navigation.view g).neighbours {} a, b ∈ order := by
    intro a ha b hb
    rw [neighbours_navigation, hg.mem_successors_iff] at hb
    exact (hmem b).mpr (((hmem a).mp ha).imp_right fun hreach => hreach.tail hb)
  have hsources : (g.edgeSlots.toList.filter fun e => e.source ∈ order ∧
        ¬ order.idxOf e.destination < order.idxOf e.source) =
      g.edgeSlots.toList.filter fun e => ReflTransGen g.Adj h e.source ∧
        ¬ order.idxOf e.destination < order.idxOf e.source := by
    refine List.filter_congr fun e he => decide_eq_decide.mpr (and_congr_left fun _ => ?_)
    obtain ⟨k, hk⟩ := exists_edge?_of_mem he
    rw [hmem, and_iff_right_iff_imp]
    exact fun hreach => hasNode_of_reaches hg hreach ⟨k, e, hk, rfl, rfl⟩
  have hback := hq.cycles_perm hgo (by simp)
  rw [hcycles, ← hsources]
  exact hback.trans (hg.behind_perm hnodup hclosed)

end Graph

end Multidigraph
