import Multidigraph.Proofs.CycleSearch
import Multidigraph.Proofs.Reachability

open Relation

namespace Multidigraph

namespace Walk

section Order

variable {N : Type} [DecidableEq N] {l : List N} {a b : N}

theorem idxOf_lt_of_sublist (hnodup : l.Nodup) (h : [a, b].Sublist l) :
    l.idxOf a < l.idxOf b := by
  have hpair : l.Pairwise fun a b => l.idxOf a < l.idxOf b :=
    List.pairwise_iff_getElem.mpr fun i j hi hj hij => by
      rwa [hnodup.idxOf_getElem i hi, hnodup.idxOf_getElem j hj]
  exact List.pairwise_iff_forall_sublist.mp hpair h

theorem rel_of_idxOf_lt {r : N → N → Prop} (hl : l.Pairwise r) (hb : b ∈ l)
    (h : l.idxOf a < l.idxOf b) : r a b := by
  have hlength := List.idxOf_lt_length_iff.mpr hb
  have hr := List.pairwise_iff_getElem.mp hl _ _ (Nat.lt_trans h hlength) hlength h
  rwa [List.getElem_idxOf, List.getElem_idxOf] at hr

theorem mem_of_idxOf_lt {before after : List N}
    (h : (before ++ b :: after).idxOf a < (before ++ b :: after).idxOf b) : a ∈ before := by
  by_contra ha
  have hfirst : (before ++ b :: after).idxOf b ≤ before.length := by
    by_cases hb : b ∈ before
    · rw [List.idxOf_append_of_mem hb]
      exact List.idxOf_le_length
    · rw [List.idxOf_append_of_notMem hb, List.idxOf_cons_self, Nat.add_zero]
  rw [List.idxOf_append_of_notMem ha] at h
  omega

end Order

def collectEntered {σ N : Type} : Visitor ((σ × Array N) × Array N) N Empty :=
  fun ((world, entered), left) n _ => (.proceed, ((world, entered.push n), left))

section Both

variable {σ N : Type} [Ord N] [Std.TransOrd N] (nav : Navigation σ N) (limit : Nat) (world : σ)
  (n : N)

theorem topologicalOrder_eq_left :
    topologicalOrder nav limit world n =
      (depthFirst (nav.comap fun w : (σ × Array N) × Array N => w.1.1) collectEntered collect {}
        limit ((world, #[]), #[]) n).world.2.toList := by
  have hpre : (collectEntered : Visitor ((σ × Array N) × Array N) N Empty).Projects
      (Prod.map Prod.fst id) pass := fun _ _ _ => rfl
  have hwalk : depthFirst (nav.comap Prod.fst) pass collect {} limit (world, #[]) n =
      (depthFirst (nav.comap fun w : (σ × Array N) × Array N => w.1.1) collectEntered collect {}
        limit ((world, #[]), #[]) n).mapWorld (Prod.map Prod.fst id) :=
    depthFirst_mapWorld hpre (collect_projects Prod.fst) {} limit ((world, #[]), #[]) n
  exact congrArg (fun r => r.world.2.toList) hwalk

theorem reachable_eq_entered :
    reachable nav limit world n {} =
      (depthFirst (nav.comap fun w : (σ × Array N) × Array N => w.1.1) collectEntered collect {}
        limit ((world, #[]), #[]) n).world.1.2.toList := by
  have hpre : (collectEntered : Visitor ((σ × Array N) × Array N) N Empty).Projects
      Prod.fst collect := fun _ _ _ => rfl
  have hpost : (collect : Visitor ((σ × Array N) × Array N) N Empty).Projects
      Prod.fst pass := fun _ _ _ => rfl
  have hwalk : depthFirst (nav.comap Prod.fst) collect pass {} limit (world, #[]) n =
      (depthFirst (nav.comap fun w : (σ × Array N) × Array N => w.1.1) collectEntered collect {}
        limit ((world, #[]), #[]) n).mapWorld Prod.fst :=
    depthFirst_mapWorld hpre hpost {} limit ((world, #[]), #[]) n
  exact congrArg (fun r => r.world.2.toList) hwalk

end Both

namespace DepthFirst

variable {σ N : Type} [Ord N] [Std.TransOrd N] [Std.LawfulEqOrd N] {v : View N} {flags : Flags}
  {visited visited' : Std.ExtTreeSet N} {ns ms entered entered' left left' : List N} {n w : N}

/-- Whether a node is entered from a list, after all that stands before it there. -/
def TakenUp (v : View N) (visited : Std.ExtTreeSet N) (entered ns : List N) (w : N) : Prop :=
  ∃ before after, ns = before ++ w :: after ∧
    ∀ b ∈ before, v.contains b = true → b ∈ visited ∨ [b, w].Sublist entered

omit [Std.LawfulEqOrd N] in
theorem TakenUp.mono (h : TakenUp v visited entered ns w)
    (hmono : ∀ b, b ∈ visited ∨ [b, w].Sublist entered → b ∈ visited' ∨ [b, w].Sublist entered') :
    TakenUp v visited' entered' ns w := by
  obtain ⟨before, after, hns, hbefore⟩ := h
  exact ⟨before, after, hns, fun b hb hlive => hmono b (hbefore b hb hlive)⟩

omit [Std.LawfulEqOrd N] in
theorem TakenUp.cons (h : TakenUp v visited entered ns w)
    (hn : v.contains n = true → n ∈ visited ∨ [n, w].Sublist entered) :
    TakenUp v visited entered (n :: ns) w := by
  obtain ⟨before, after, rfl, hbefore⟩ := h
  refine ⟨n :: before, after, rfl, fun b hb => ?_⟩
  obtain rfl | hb := List.mem_cons.mp hb
  · exact hn
  · exact hbefore b hb

omit [Std.LawfulEqOrd N] in
theorem TakenUp.mem (h : TakenUp v visited entered ns w) : w ∈ ns := by
  obtain ⟨before, after, rfl, -⟩ := h
  exact List.mem_append_right _ List.mem_cons_self

omit [Std.LawfulEqOrd N] in
theorem TakenUp.idxOf_lt [DecidableEq N] (h : TakenUp v ∅ entered ns w) (hnodup : entered.Nodup)
    {b : N} (hb : v.contains b = true) (hlt : ns.idxOf b < ns.idxOf w) :
    entered.idxOf b < entered.idxOf w := by
  obtain ⟨before, after, rfl, hbefore⟩ := h
  obtain hvisited | hsub := hbefore b (mem_of_idxOf_lt hlt) hb
  · exact absurd hvisited Std.ExtTreeSet.not_mem_empty
  · exact idxOf_lt_of_sublist hnodup hsub

/-- How a walk enters nodes, beside how it leaves them, when it takes up a list of nodes. -/
structure Enters (v : View N) (flags : Flags) (visited : Std.ExtTreeSet N)
    (ns entered left : List N) : Prop where
  perm : entered.Perm left
  ordered : left.Pairwise fun a b => ReflTransGen (v.Leads flags) b a ∨ [a, b].Sublist entered
  taken : ∀ w ∈ entered, TakenUp v visited entered ns w ∨
    ∃ k, [k, w].Sublist entered ∧ TakenUp v visited entered (v.neighbours flags k) w

namespace Enters

omit [Std.LawfulEqOrd N] in
theorem idxOf_lt [DecidableEq N] (h : Enters v flags visited ns entered left)
    (hnodup : entered.Nodup) {a b : N} (hb : b ∈ left)
    (hba : ¬ ReflTransGen (v.Leads flags) b a) (hlt : left.idxOf a < left.idxOf b) :
    entered.idxOf a < entered.idxOf b := by
  obtain hreach | hsub := rel_of_idxOf_lt h.ordered hb hlt
  · exact absurd hreach hba
  · exact idxOf_lt_of_sublist hnodup hsub

omit [Std.LawfulEqOrd N] in
theorem nil : Enters v flags visited ns [] [] where
  perm := .nil
  ordered := .nil
  taken w hw := by cases hw

omit [Std.LawfulEqOrd N] in
theorem skip (h : Enters v flags visited ns entered left)
    (hn : v.contains n = true → n ∈ visited) : Enters v flags visited (n :: ns) entered left where
  perm := h.perm
  ordered := h.ordered
  taken w hw := (h.taken w hw).imp_left fun htaken => htaken.cons fun hlive => .inl (hn hlive)

/-- A node is entered before all that is entered below it, and left after that; what is entered
below it comes before what comes later in either way. -/
theorem visit (hbelow : Enters v flags (visited.insert n) (v.neighbours flags n) entered left)
    (hrest : Enters v flags visited' ns entered' left')
    (hleads : ∀ m ∈ left, ReflTransGen (v.Leads flags) n m)
    (hvisited : ∀ m, m ∈ visited' → m ∈ visited ∨ m = n ∨ m ∈ left) :
    Enters v flags visited (n :: ns) (n :: entered ++ entered') (left ++ n :: left') := by
  have hinner : entered.Sublist (n :: entered ++ entered') :=
    (List.sublist_cons_self _ _).trans (List.sublist_append_left _ _)
  have hlater : entered'.Sublist (n :: entered ++ entered') := List.sublist_append_right _ _
  have hdown : ∀ w ∈ entered, [n, w].Sublist (n :: entered ++ entered') := fun w hw =>
    ((List.singleton_sublist.mpr hw).cons_cons n).trans (List.sublist_append_left _ _)
  have hacross : ∀ b ∈ n :: entered, ∀ w ∈ entered', [b, w].Sublist (n :: entered ++ entered') :=
    fun b hb w hw => (List.singleton_sublist.mpr hb).append (List.singleton_sublist.mpr hw)
  constructor
  case perm =>
    exact ((hbelow.perm.append hrest.perm).cons n).trans List.perm_middle.symm
  case ordered =>
    refine List.pairwise_append.mpr ⟨?_, List.pairwise_cons.mpr ⟨?_, ?_⟩, ?_⟩
    · exact hbelow.ordered.imp fun h => h.imp_right fun h => h.trans hinner
    · intro b hb
      exact .inr (hacross n List.mem_cons_self b (hrest.perm.mem_iff.mpr hb))
    · exact hrest.ordered.imp fun h => h.imp_right fun h => h.trans hlater
    · intro a ha b hb
      obtain rfl | hb := List.mem_cons.mp hb
      · exact .inl (hleads a ha)
      · exact .inr (hacross a (List.mem_cons_of_mem _ (hbelow.perm.mem_iff.mpr ha)) b
          (hrest.perm.mem_iff.mpr hb))
  case taken =>
    intro w hw
    rw [List.cons_append, List.mem_cons, List.mem_append] at hw
    obtain rfl | hw | hw := hw
    · exact .inl ⟨[], ns, rfl, fun b hb => by cases hb⟩
    · have hmono : ∀ b, b ∈ visited.insert n ∨ [b, w].Sublist entered →
          b ∈ visited ∨ [b, w].Sublist (n :: entered ++ entered') := by
        rintro b (hb | hb)
        · obtain rfl | hb := mem_insert_iff.mp hb
          · exact .inr (hdown w hw)
          · exact .inl hb
        · exact .inr (hb.trans hinner)
      obtain htaken | ⟨k, hk, htaken⟩ := hbelow.taken w hw
      · exact .inr ⟨n, hdown w hw, htaken.mono hmono⟩
      · exact .inr ⟨k, hk.trans hinner, htaken.mono hmono⟩
    · have hmono : ∀ b, b ∈ visited' ∨ [b, w].Sublist entered' →
          b ∈ visited ∨ [b, w].Sublist (n :: entered ++ entered') := by
        rintro b (hb | hb)
        · obtain hb | rfl | hb := hvisited b hb
          · exact .inl hb
          · exact .inr (hacross b List.mem_cons_self w hw)
          · exact .inr (hacross b (List.mem_cons_of_mem _ (hbelow.perm.mem_iff.mpr hb)) w hw)
        · exact .inr (hb.trans hlater)
      obtain htaken | ⟨k, hk, htaken⟩ := hrest.taken w hw
      · exact .inl ((htaken.mono hmono).cons fun _ => .inr (hacross n List.mem_cons_self w hw))
      · exact .inr ⟨k, hk.trans hlater, htaken.mono hmono⟩

end Enters

theorem Explores.enters {path : Std.ExtTreeSet N}
    {p q : Progress ((σ × Array N) × Array N) N Empty}
    (h : Explores v collectEntered collect flags path p ns left q) (hq : q.stopped = false) :
    ∃ entered, q.world.1.2.toList = p.world.1.2.toList ++ entered ∧
      Enters v flags p.visited ns entered left := by
  induction h with
  | halt hs => rw [hs] at hq; cases hq
  | nil => exact ⟨[], by simp, .nil⟩
  | seen _ hn _ ih =>
    obtain ⟨entered, hworld, henters⟩ := ih hq
    exact ⟨entered, hworld, henters.skip fun _ => hn⟩
  | absent _ _ hv _ ih =>
    obtain ⟨entered, hworld, henters⟩ := ih hq
    refine ⟨entered, hworld, henters.skip fun hlive => ?_⟩
    rw [hv] at hlive
    cases hlive
  | cut _ _ _ _ hs => rw [hs] at hq; cases hq
  | @visit path p n ns left left' q r _ _ hv hbelow hs hrest ihbelow ihrest =>
    obtain ⟨entered, hworld, henters⟩ := ihbelow hs
    obtain ⟨entered', hworld', henters'⟩ := ihrest hq
    rw [Progress.visited_enter] at henters
    rw [Progress.visited_call] at henters'
    refine ⟨n :: entered ++ entered', ?_, henters.visit henters' (fun m hm => ?_) fun m hm => ?_⟩
    · have hfirst : (p.enter v collectEntered flags (path.insert n) n).world.1.2.toList =
          p.world.1.2.toList ++ [n] := by
        simp [Progress.world_call, collectEntered]
      have hlast : (q.call collect flags n).world.1 = q.world.1 := rfl
      rw [hworld', hlast, hworld, hfirst]
      simp
    · obtain ⟨hvisited, hnew⟩ := (hbelow.mem_left_iff hs m).mp hm
      obtain hold | ⟨-, k, hk, hreach⟩ := hbelow.reached hvisited
      · exact absurd hold hnew
      · exact .head ⟨hv, hk⟩ hreach
    · by_cases hold : m ∈ p.visited
      · exact .inl hold
      · by_cases hmn : m = n
        · exact .inr (.inl hmn)
        · refine .inr (.inr ((hbelow.mem_left_iff hs m).mpr ⟨hm, ?_⟩))
          rw [Progress.visited_enter, mem_insert_iff]
          exact not_or.mpr ⟨hmn, hold⟩

end DepthFirst

end Walk

namespace Graph

open Walk DepthFirst

variable {g : Graph}

theorem order_and_reachable_explores (g : Graph) (h : NodeHandle) :
    ∃ q, Explores (navigation.view g) collectEntered collect {} ∅ (.start ((g, #[]), #[])) [h]
      (g.topologicalOrder h) q ∧ q.stopped = false ∧ g.reachable h {} = q.world.1.2.toList := by
  let nav : Navigation ((Graph × Array NodeHandle) × Array NodeHandle) NodeHandle :=
    navigation.comap fun world => world.1.1
  have hpre : collectEntered.Keeps nav (navigation.view g) := fun _ _ _ h => h
  have hpost : collect.Keeps nav (navigation.view g) := fun _ _ _ h => h
  obtain ⟨left, q, hq, hruns⟩ := depthFirst_explores nav ((g, #[]), #[]) hpre hpost
    (fun _ => mem_handles_of_hasNode (g := g)) {} h
  have hrun := hruns _ (g.pushes_le_stepBound {})
  have horder : g.topologicalOrder h = left := by
    rw [topologicalOrder, topologicalOrder_eq_left, hrun]
    simpa [Progress.report, Progress.start] using hq.collected _ fun _ _ _ => rfl
  have hvisits : g.reachable h {} = q.world.1.2.toList := by
    rw [reachable, reachable_eq_entered, hrun]
    rfl
  rw [horder]
  exact ⟨q, hq, hq.stopped_of_goesOn (fun _ _ _ => rfl) (fun _ _ _ => rfl) rfl, hvisits⟩

/-- Of two nodes of which neither leads to the other, the one that a walk comes to first stands
first in the order. So siblings keep the order of the edges that lead to them from a node, unless
the later one has another predecessor, which the walk comes to before the earlier sibling. -/
theorem siblings_ofHistory (id : GraphId) (ops : List Operation) (h : NodeHandle) :
    let g := ofHistory id ops
    let order := g.topologicalOrder h
    let visits := g.reachable h {}
    (∀ a b, ReflTransGen g.Adj h a → ReflTransGen g.Adj h b →
      ¬ ReflTransGen g.Adj a b → ¬ ReflTransGen g.Adj b a →
      (order.idxOf a < order.idxOf b ↔ visits.idxOf a < visits.idxOf b)) ∧
    ∀ u a b, ReflTransGen g.Adj h u → b ∈ g.successors u →
      (g.successors u).idxOf a < (g.successors u).idxOf b →
      ¬ ReflTransGen g.Adj a b → ¬ ReflTransGen g.Adj b a →
      order.idxOf a < order.idxOf b ∨
        ∃ p, p ≠ u ∧ g.Adj p b ∧ visits.idxOf p < visits.idxOf a := by
  intro g order visits
  have hg : g.WellFormed := ofHistory_wellFormed id ops
  obtain ⟨q, hq, hstop, hvisits⟩ := g.order_and_reachable_explores h
  obtain ⟨entered, hworld, henters⟩ := hq.enters hstop
  obtain rfl : entered = visits := by
    rw [show visits = q.world.1.2.toList from hvisits]
    simpa [Progress.start] using hworld.symm
  have hnodup : visits.Nodup := henters.perm.nodup_iff.mpr (hq.nodup_left hstop)
  have hmem : ∀ n, g.hasNode h = true → ReflTransGen g.Adj h n → n ∈ order := by
    intro n hh hn
    refine (hq.mem_left_iff_reaches hstop hh n).mpr ⟨hasNode_of_reflTransGen hg hh hn, ?_⟩
    rwa [hg.leads_eq]
  have hone : ∀ a b, b ∈ order → ¬ ReflTransGen g.Adj b a → order.idxOf a < order.idxOf b →
      visits.idxOf a < visits.idxOf b := by
    intro a b hb hba
    rw [← hg.leads_eq] at hba
    exact henters.idxOf_lt hnodup hb hba
  have hboth : ∀ a b, ReflTransGen g.Adj h a → ReflTransGen g.Adj h b →
      ¬ ReflTransGen g.Adj a b → ¬ ReflTransGen g.Adj b a →
      (order.idxOf a < order.idxOf b ↔ visits.idxOf a < visits.idxOf b) := by
    intro a b ha hb hab hba
    have hh : g.hasNode h = true := by
      obtain rfl | ⟨_, hstep, -⟩ := ha.cases_head
      · exact absurd hb hab
      · exact (hstep.hasNode hg).1
    refine ⟨hone a b (hmem b hh hb) hba, fun hlt => ?_⟩
    obtain hlt' | heq | hlt' := Nat.lt_trichotomy (order.idxOf a) (order.idxOf b)
    · exact hlt'
    · exact absurd ((List.idxOf_inj (hmem a hh ha)).mp heq ▸ .refl) hab
    · exact absurd hlt (Nat.lt_asymm (hone b a (hmem a hh ha) hab hlt'))
  refine ⟨hboth, fun u a b hu hb hlt hab hba => ?_⟩
  have ha : a ∈ g.successors u :=
    List.idxOf_lt_length_iff.mp (Nat.lt_trans hlt (List.idxOf_lt_length_iff.mpr hb))
  rw [hg.mem_successors_iff] at ha hb
  have hh : g.hasNode h = true := hasNode_of_reaches hg hu hb
  rw [hboth a b (hu.tail ha) (hu.tail hb) hab hba]
  obtain htaken | ⟨p, hp, htaken⟩ :=
    henters.taken b (henters.perm.mem_iff.mpr (hmem b hh (hu.tail hb)))
  · -- only the start is taken up from nowhere, and it leads to all others
    obtain rfl := List.mem_singleton.mp htaken.mem
    exact absurd (hu.tail ha) hba
  · rw [neighbours_navigation] at htaken
    by_cases hpu : p = u
    · subst hpu
      exact .inl (htaken.idxOf_lt hnodup (ha.hasNode hg).2 hlt)
    · by_cases hfirst : visits.idxOf a < visits.idxOf b
      · exact .inl hfirst
      · exact .inr ⟨p, hpu, hg.mem_successors_iff.mp htaken.mem,
          Nat.lt_of_lt_of_le (idxOf_lt_of_sublist hnodup hp) (Nat.not_lt.mp hfirst)⟩

/-- The start leads to the last node at once, and by a detour that comes second; the node on the
detour leads to two siblings, of which the last node is the later one. -/
def detour : List Operation := [.putNode "s" "", .putNode "u" "", .putNode "a" "",
  .putNode "b" "", .putEdge .default "sb" "" ⟨0⟩ ⟨3⟩, .putEdge .default "su" "" ⟨0⟩ ⟨1⟩,
  .putEdge .default "ua" "" ⟨1⟩ ⟨2⟩, .putEdge .default "ub" "" ⟨1⟩ ⟨3⟩]

theorem slot_lt_of_adj_detour {a b : NodeHandle} (hab : (ofHistory ⟨⟨0⟩⟩ detour).Adj a b) :
    a.slot < b.slot := by
  have hedges : ∀ e ∈ (ofHistory ⟨⟨0⟩⟩ detour).edgeSlots.toList,
      e.source.slot < e.destination.slot := by decide +kernel
  obtain ⟨k, e, he, rfl, rfl⟩ := hab
  exact hedges e (Arena.mem_toList_of_get? _ he)

theorem detour_acyclic (n : NodeHandle) : ¬ TransGen (ofHistory ⟨⟨0⟩⟩ detour).Adj n n := by
  intro hn
  have hlt : ∀ a b, TransGen (ofHistory ⟨⟨0⟩⟩ detour).Adj a b → a.slot < b.slot := by
    intro a b hab
    induction hab with
    | single hab => exact slot_lt_of_adj_detour hab
    | tail _ hbc ih => exact Nat.lt_trans ih (slot_lt_of_adj_detour hbc)
  exact Nat.lt_irrefl _ (hlt n n hn)

theorem detour_ends {a b : NodeHandle} (ha : (ofHistory ⟨⟨0⟩⟩ detour).successors a = [])
    (hne : a ≠ b) : ¬ ReflTransGen (ofHistory ⟨⟨0⟩⟩ detour).Adj a b := by
  intro hab
  obtain heq | ⟨m, hstep, -⟩ := hab.cases_head
  · exact hne heq
  · rw [← (ofHistory_wellFormed ⟨⟨0⟩⟩ detour).mem_successors_iff, ha] at hstep
    cases hstep

theorem siblings_ofHistory_detour :
    let g := ofHistory ⟨⟨0⟩⟩ detour
    let order := g.topologicalOrder ⟨0⟩
    let visits := g.reachable ⟨0⟩ {}
    ((order.idxOf ⟨2⟩ < order.idxOf ⟨3⟩ ↔ visits.idxOf ⟨2⟩ < visits.idxOf ⟨3⟩) ∧
      (order.idxOf ⟨2⟩ < order.idxOf ⟨3⟩ ∨
        ∃ p : NodeHandle, p ≠ ⟨1⟩ ∧ g.Adj p ⟨3⟩ ∧ visits.idxOf p < visits.idxOf ⟨2⟩)) ∧
      order = [⟨3⟩, ⟨2⟩, ⟨1⟩, ⟨0⟩] ∧ visits = [⟨0⟩, ⟨3⟩, ⟨1⟩, ⟨2⟩] := by
  intro g order visits
  have hg : g.WellFormed := ofHistory_wellFormed _ _
  have hab : ¬ ReflTransGen g.Adj ⟨2⟩ ⟨3⟩ := detour_ends (by decide +kernel) (by decide)
  have hba : ¬ ReflTransGen g.Adj ⟨3⟩ ⟨2⟩ := detour_ends (by decide +kernel) (by decide)
  have hu : ReflTransGen g.Adj ⟨0⟩ ⟨1⟩ := .single (hg.mem_successors_iff.mp (by decide +kernel))
  have ha : g.Adj ⟨1⟩ ⟨2⟩ := hg.mem_successors_iff.mp (by decide +kernel)
  have hb : g.Adj ⟨1⟩ ⟨3⟩ := hg.mem_successors_iff.mp (by decide +kernel)
  obtain ⟨hboth, hkeep⟩ := siblings_ofHistory ⟨⟨0⟩⟩ detour ⟨0⟩
  exact ⟨⟨hboth ⟨2⟩ ⟨3⟩ (hu.tail ha) (hu.tail hb) hab hba,
    hkeep ⟨1⟩ ⟨2⟩ ⟨3⟩ hu (by decide +kernel) (by decide +kernel) hab hba⟩,
    by decide +kernel, by decide +kernel⟩

/-- Siblings do not always keep the order of their edges, even where no cycle can be reached. -/
theorem topologicalOrder_swaps_siblings :
    ¬ ∀ (id : GraphId) (ops : List Operation) (h : NodeHandle),
      (ofHistory id ops).hasNode h = true →
      (∀ n, ReflTransGen (ofHistory id ops).Adj h n → ¬ TransGen (ofHistory id ops).Adj n n) →
      ∀ u a b, ReflTransGen (ofHistory id ops).Adj h u →
        a ∈ (ofHistory id ops).successors u → b ∈ (ofHistory id ops).successors u →
        ¬ ReflTransGen (ofHistory id ops).Adj a b → ¬ ReflTransGen (ofHistory id ops).Adj b a →
        ((ofHistory id ops).successors u).idxOf a < ((ofHistory id ops).successors u).idxOf b →
        ((ofHistory id ops).topologicalOrder h).idxOf a <
          ((ofHistory id ops).topologicalOrder h).idxOf b := by
  intro hall
  have hg := ofHistory_wellFormed ⟨⟨0⟩⟩ detour
  have hkept := hall ⟨⟨0⟩⟩ detour ⟨0⟩ (by decide +kernel) (fun n _ => detour_acyclic n) ⟨1⟩ ⟨2⟩ ⟨3⟩
    (.single (hg.mem_successors_iff.mp (by decide +kernel))) (by decide +kernel)
    (by decide +kernel) (detour_ends (by decide +kernel) (by decide))
    (detour_ends (by decide +kernel) (by decide)) (by decide +kernel)
  revert hkept
  decide +kernel

end Graph

end Multidigraph
