import Mathlib.Order.Lattice.Nat
import Multidigraph.Proofs.Reachability

open Relation

namespace Multidigraph

namespace Walk

variable {σ N ε : Type}

section Distance

variable {leads : N → N → Prop} {a b c : N} {k : Nat}

inductive Way (leads : N → N → Prop) (a : N) : Nat → N → Prop where
  | start : Way leads a 0 a
  | step {k : Nat} {b c : N} : Way leads a k b → leads b c → Way leads a (k + 1) c

/-- The least number of steps from one node to another that it can reach. -/
noncomputable def distance (leads : N → N → Prop) (a b : N) : Nat := sInf {k | Way leads a k b}

theorem exists_way (h : ReflTransGen leads a b) : ∃ k, Way leads a k b := by
  induction h with
  | refl => exact ⟨0, .start⟩
  | tail _ hstep ih =>
    obtain ⟨k, hway⟩ := ih
    exact ⟨k + 1, hway.step hstep⟩

theorem Way.reflTransGen (h : Way leads a k b) : ReflTransGen leads a b := by
  induction h with
  | start => exact .refl
  | step _ hstep ih => exact ih.tail hstep

theorem way_distance (h : ReflTransGen leads a b) : Way leads a (distance leads a b) b :=
  Nat.sInf_mem (exists_way h)

theorem Way.distance_le (h : Way leads a k b) : distance leads a b ≤ k := Nat.sInf_le h

theorem distance_self : distance leads a a = 0 := Nat.le_zero.mp Way.start.distance_le

theorem distance_le_succ (h : ReflTransGen leads a b) (hbc : leads b c) :
    distance leads a c ≤ distance leads a b + 1 :=
  ((way_distance h).step hbc).distance_le

theorem exists_distance_eq_succ (h : ReflTransGen leads a b) (hb : b ≠ a) :
    ∃ p, ReflTransGen leads a p ∧ leads p b ∧ distance leads a b = distance leads a p + 1 := by
  have hway := way_distance h
  generalize hk : distance leads a b = k at hway
  cases hway with
  | start => exact absurd rfl hb
  | step hway hstep =>
    refine ⟨_, hway.reflTransGen, hstep, ?_⟩
    have hle := distance_le_succ hway.reflTransGen hstep
    have hp := hway.distance_le
    omega

end Distance

section Finds

variable [DecidableEq N] {next : N → List (Option N)} {order : List N} {a b u w x : N}

/-- Whether `u` is the first of `order` that has `a` at a position of its neighbour list. -/
structure Finds (next : N → List (Option N)) (order : List N) (u a : N) : Prop where
  mem : u ∈ order
  leads : some a ∈ next u
  first : ∀ w ∈ order, some a ∈ next w → order.idxOf u ≤ order.idxOf w

theorem exists_finds (hu : u ∈ order) (ha : some a ∈ next u) : ∃ w, Finds next order w a := by
  obtain ⟨w, ⟨hw, hleads⟩, hfirst⟩ := (measure order.idxOf).wf.has_min
    {w | w ∈ order ∧ some a ∈ next w} ⟨u, hu, ha⟩
  exact ⟨w, hw, hleads, fun z hz hza => Nat.not_lt.mp (hfirst z ⟨hz, hza⟩)⟩

theorem Finds.unique (hu : Finds next order u a) (hw : Finds next order w a) : u = w :=
  (List.idxOf_inj hu.mem).mp
    (Nat.le_antisymm (hu.first w hw.mem hw.leads) (hw.first u hu.mem hu.leads))

theorem finds_cons_of_mem (hx : some a ∈ next x) : Finds next (x :: order) u a ↔ u = x := by
  constructor
  · intro h
    have hfirst := h.first x List.mem_cons_self hx
    rw [List.idxOf_cons_self, Nat.le_zero] at hfirst
    by_contra hne
    rw [List.idxOf_cons_ne _ (Ne.symm hne)] at hfirst
    cases hfirst
  · rintro rfl
    refine ⟨List.mem_cons_self, hx, fun w _ _ => ?_⟩
    rw [List.idxOf_cons_self]
    exact Nat.zero_le _

theorem finds_cons_of_notMem (hx : some a ∉ next x) :
    Finds next (x :: order) u a ↔ u ≠ x ∧ Finds next order u a := by
  have hne : ∀ w, some a ∈ next w → w ≠ x := by
    rintro w hw rfl
    exact hx hw
  constructor
  · intro h
    have hu := hne u h.leads
    refine ⟨hu, (List.mem_cons.mp h.mem).resolve_left hu, h.leads, fun w hw hwa => ?_⟩
    have hfirst := h.first w (List.mem_cons_of_mem _ hw) hwa
    rw [List.idxOf_cons_ne _ hu.symm, List.idxOf_cons_ne _ (hne w hwa).symm] at hfirst
    exact Nat.succ_le_succ_iff.mp hfirst
  · rintro ⟨hu, h⟩
    refine ⟨List.mem_cons_of_mem _ h.mem, h.leads, fun w hw hwa => ?_⟩
    rw [List.idxOf_cons_ne _ hu.symm, List.idxOf_cons_ne _ (hne w hwa).symm]
    exact Nat.succ_le_succ (h.first w ((List.mem_cons.mp hw).resolve_left (hne w hwa)) hwa)

theorem idxOf_flatMap_lt_iff (hu : Finds next order u a) (hw : Finds next order w b) :
    (order.flatMap next).idxOf (some a) < (order.flatMap next).idxOf (some b) ↔
      order.idxOf u < order.idxOf w ∨
        u = w ∧ (next u).idxOf (some a) < (next u).idxOf (some b) := by
  induction order with
  | nil => cases hu.mem
  | cons x order ih =>
    rw [List.flatMap_cons]
    by_cases ha : some a ∈ next x <;> by_cases hb : some b ∈ next x
    · obtain rfl := (finds_cons_of_mem ha).mp hu
      obtain rfl := (finds_cons_of_mem hb).mp hw
      simp [List.idxOf_append_of_mem ha, List.idxOf_append_of_mem hb]
    · obtain rfl := (finds_cons_of_mem ha).mp hu
      obtain ⟨hne, -⟩ := (finds_cons_of_notMem hb).mp hw
      rw [List.idxOf_append_of_mem ha, List.idxOf_append_of_notMem hb, List.idxOf_cons_self,
        List.idxOf_cons_ne _ hne.symm]
      have hlt := List.idxOf_lt_length_iff.mpr ha
      exact iff_of_true (by omega) (.inl (Nat.succ_pos _))
    · obtain rfl := (finds_cons_of_mem hb).mp hw
      obtain ⟨hne, -⟩ := (finds_cons_of_notMem ha).mp hu
      rw [List.idxOf_append_of_notMem ha, List.idxOf_append_of_mem hb, List.idxOf_cons_self]
      have hlt := List.idxOf_lt_length_iff.mpr hb
      refine iff_of_false (by omega) ?_
      rintro (h | ⟨h, -⟩)
      · cases h
      · exact hne h
    · obtain ⟨hux, hu⟩ := (finds_cons_of_notMem ha).mp hu
      obtain ⟨hwx, hw⟩ := (finds_cons_of_notMem hb).mp hw
      rw [List.idxOf_append_of_notMem ha, List.idxOf_append_of_notMem hb,
        List.idxOf_cons_ne _ hux.symm, List.idxOf_cons_ne _ hwx.symm, Nat.add_lt_add_iff_left,
        Nat.succ_lt_succ_iff]
      exact ih hu hw

end Finds

section Entries

variable [DecidableEq N] {leads : N → N → Prop} {next : N → List (Option N)} {start a b u w x : N}
  {order xs : List N}

theorem eraseDups_append_singleton :
    (xs ++ [x]).eraseDups = if x ∈ xs then xs.eraseDups else xs.eraseDups ++ [x] := by
  rw [List.eraseDups_append]
  split <;> simp [List.removeAll, List.eraseDups_cons, *]

theorem pairwise_eraseDups (xs : List N) :
    xs.eraseDups.Pairwise fun a b => xs.idxOf a < xs.idxOf b := by
  induction xs using List.reverseRecOn with
  | nil => exact .nil
  | append_singleton xs x ih =>
    have hold : xs.eraseDups.Pairwise fun a b => (xs ++ [x]).idxOf a < (xs ++ [x]).idxOf b := by
      refine ih.imp_of_mem fun {a b} ha hb hab => ?_
      rwa [List.idxOf_append_of_mem (List.mem_eraseDups.mp ha),
        List.idxOf_append_of_mem (List.mem_eraseDups.mp hb)]
    rw [eraseDups_append_singleton]
    split
    · exact hold
    · next hx =>
      refine List.pairwise_append.mpr ⟨hold, List.pairwise_singleton _ _, fun a ha b hb => ?_⟩
      obtain rfl := List.mem_singleton.mp hb
      have ha := List.mem_eraseDups.mp ha
      rw [List.idxOf_append_of_mem ha, List.idxOf_append_of_notMem hx]
      exact Nat.lt_add_right _ (List.idxOf_lt_length_iff.mpr ha)

theorem idxOf_lt_idxOf_iff_of_pairwise {f : N → Nat} (h : xs.Pairwise fun a b => f a < f b)
    (ha : a ∈ xs) (hb : b ∈ xs) : xs.idxOf a < xs.idxOf b ↔ f a < f b := by
  have hmono : ∀ {a b}, a ∈ xs → b ∈ xs → xs.idxOf a < xs.idxOf b → f a < f b := by
    intro a b ha hb hab
    have hlt := List.pairwise_iff_getElem.mp h _ _ (List.idxOf_lt_length_iff.mpr ha)
      (List.idxOf_lt_length_iff.mpr hb) hab
    rwa [List.getElem_idxOf, List.getElem_idxOf] at hlt
  refine ⟨hmono ha hb, fun hab => ?_⟩
  obtain hlt | heq | hgt := Nat.lt_trichotomy (xs.idxOf a) (xs.idxOf b)
  · exact hlt
  · rw [(List.idxOf_inj ha).mp heq] at hab
    exact absurd hab (Nat.lt_irrefl _)
  · exact absurd hab (Nat.lt_asymm (hmono hb ha hgt))

theorem idxOf_resolved_lt_iff (entries : List (Option N)) :
    (resolved entries).idxOf a < (resolved entries).idxOf b ↔
      entries.idxOf (some a) < entries.idxOf (some b) := by
  induction entries with
  | nil => simp [resolved]
  | cons entry entries ih =>
    cases entry with
    | none => simpa [resolved, List.idxOf_cons] using ih
    | some x =>
      rw [show resolved (some x :: entries) = x :: resolved entries from rfl]
      simp only [List.idxOf_cons, Option.some_beq_some]
      cases x == a <;> cases x == b <;> simp [ih]

omit [DecidableEq N] in
theorem mem_resolved {entries : List (Option N)} : a ∈ resolved entries ↔ some a ∈ entries := by
  simp [resolved]

/-- The order of a breadth-first walk. The nodes come level by level; within a level one comes
before another when the first node to find it does, or when the same node has both and the one at
an earlier position. -/
structure InLevels (leads : N → N → Prop) (next : N → List (Option N)) (start : N)
    (order : List N) : Prop where
  once : order.Nodup
  mem_iff : ∀ m, m ∈ order ↔ ReflTransGen leads start m
  levels : order.Pairwise fun a b => distance leads start a ≤ distance leads start b
  found : ∀ m ∈ order, m ≠ start →
    ∃ u, Finds next order u m ∧ distance leads start m = distance leads start u + 1
  ties : ∀ a b u w, Finds next order u a → Finds next order w b →
    distance leads start a = distance leads start b →
      (order.idxOf a < order.idxOf b ↔
        order.idxOf u < order.idxOf w ∨
          u = w ∧ (next u).idxOf (some a) < (next u).idxOf (some b))

/-- Whether the nodes of `order` are the entries to which `order` itself leads, each once. -/
def FirstEntries (next : N → List (Option N)) (start : N) (order : List N) : Prop :=
  order = (resolved (some start :: order.flatMap next)).eraseDups

namespace FirstEntries

theorem pairwise (h : FirstEntries next start order) :
    order.Pairwise fun a b => (some start :: order.flatMap next).idxOf (some a) <
      (some start :: order.flatMap next).idxOf (some b) := by
  have hpairwise := pairwise_eraseDups (resolved (some start :: order.flatMap next))
  rw [← show order = _ from h] at hpairwise
  exact hpairwise.imp fun hab => (idxOf_resolved_lt_iff _).mp hab

theorem mem_iff (h : FirstEntries next start order) :
    a ∈ order ↔ a = start ∨ ∃ u ∈ order, some a ∈ next u := by
  rw [show order = _ from h, List.mem_eraseDups, mem_resolved, ← show order = _ from h,
    List.mem_cons, List.mem_flatMap, Option.some_inj]

theorem mem_of_finds (h : FirstEntries next start order) (hu : Finds next order u a) :
    a ∈ order :=
  h.mem_iff.mpr (.inr ⟨u, hu.mem, hu.leads⟩)

theorem not_idxOf_lt_start (h : FirstEntries next start order) (ha : a ∈ order) :
    ¬ order.idxOf a < order.idxOf start := by
  rw [idxOf_lt_idxOf_iff_of_pairwise h.pairwise ha (h.mem_iff.mpr (.inl rfl)),
    List.idxOf_cons_self]
  exact Nat.not_lt_zero _

theorem idxOf_lt_iff (h : FirstEntries next start order) (ha : a ≠ start) (hb : b ≠ start)
    (hu : Finds next order u a) (hw : Finds next order w b) :
    order.idxOf a < order.idxOf b ↔ order.idxOf u < order.idxOf w ∨
      u = w ∧ (next u).idxOf (some a) < (next u).idxOf (some b) := by
  have hne : ∀ {m}, m ≠ start → some start ≠ some m := fun hm heq =>
    hm (Option.some.inj heq).symm
  rw [idxOf_lt_idxOf_iff_of_pairwise h.pairwise (h.mem_of_finds hu) (h.mem_of_finds hw),
    List.idxOf_cons_ne _ (hne ha), List.idxOf_cons_ne _ (hne hb), Nat.succ_lt_succ_iff]
  exact idxOf_flatMap_lt_iff hu hw

variable (hleads : ∀ a b, some b ∈ next a ↔ leads a b)
  (hmem : ∀ m, m ∈ order ↔ ReflTransGen leads start m)

include hleads hmem

/-- What stands before a node is no further. The induction is on the distance of the later node:
its predecessor on a shortest way, or one before that, has found it. -/
theorem distance_le (h : FirstEntries next start order) (ha : a ∈ order) (hb : b ∈ order)
    (hab : order.idxOf a ≤ order.idxOf b) : distance leads start a ≤ distance leads start b := by
  induction hk : distance leads start b using Nat.strong_induction_on generalizing a b with
  | _ k ih =>
    obtain hlt | heq := Nat.lt_or_eq_of_le hab
    case inr => exact Nat.le_of_eq (by rw [(List.idxOf_inj ha).mp heq, hk])
    by_cases hstart : a = start
    · rw [hstart, distance_self]
      exact Nat.zero_le _
    have hb_ne : b ≠ start := by
      rintro rfl
      exact h.not_idxOf_lt_start ha hlt
    obtain ⟨p, hp, hpb, hsucc⟩ := exists_distance_eq_succ ((hmem b).mp hb) hb_ne
    obtain ⟨w, hw⟩ := exists_finds ((hmem p).mpr hp) ((hleads p b).mpr hpb)
    obtain ⟨v, hv, hva⟩ := (h.mem_iff.mp ha).resolve_left hstart
    obtain ⟨u, hu⟩ := exists_finds hv hva
    have huw : order.idxOf u ≤ order.idxOf w := by
      obtain hlt | ⟨rfl, -⟩ := (h.idxOf_lt_iff hstart hb_ne hu hw).mp hlt
      · exact Nat.le_of_lt hlt
      · exact Nat.le_refl _
    have hup : order.idxOf u ≤ order.idxOf p :=
      Nat.le_trans huw (hw.first p ((hmem p).mpr hp) ((hleads p b).mpr hpb))
    have hu_le := ih _ (by omega) hu.mem ((hmem p).mpr hp) hup rfl
    have ha_le := distance_le_succ ((hmem u).mp hu.mem) ((hleads u a).mp hu.leads)
    omega

theorem inLevels (h : FirstEntries next start order) : InLevels leads next start order := by
  have hnodup : order.Nodup := h.pairwise.imp fun hab heq => by
    rw [heq] at hab
    exact Nat.lt_irrefl _ hab
  constructor
  case once => exact hnodup
  case mem_iff => exact hmem
  case levels =>
    refine List.pairwise_iff_getElem.mpr fun i j hi hj hij => ?_
    refine h.distance_le hleads hmem (List.getElem_mem hi) (List.getElem_mem hj) ?_
    rw [hnodup.idxOf_getElem, hnodup.idxOf_getElem]
    exact Nat.le_of_lt hij
  case found =>
    intro m hm hne
    obtain ⟨p, hp, hpm, hsucc⟩ := exists_distance_eq_succ ((hmem m).mp hm) hne
    have hp_mem := (hmem p).mpr hp
    obtain ⟨u, hu⟩ := exists_finds hp_mem ((hleads p m).mpr hpm)
    have hle := h.distance_le hleads hmem hu.mem hp_mem (hu.first p hp_mem ((hleads p m).mpr hpm))
    have hge := distance_le_succ ((hmem u).mp hu.mem) ((hleads u m).mp hu.leads)
    exact ⟨u, hu, by omega⟩
  case ties =>
    intro a b u w hu hw hdist
    by_cases hab : a = b
    · obtain rfl := hab
      obtain rfl := hu.unique hw
      simp
    · have hne : ∀ {a b}, a ≠ b → b ∈ order →
          distance leads start a = distance leads start b → a ≠ start := by
        rintro a b hab hb hdist rfl
        obtain ⟨p, -, -, hsucc⟩ := exists_distance_eq_succ ((hmem b).mp hb) (Ne.symm hab)
        rw [← hdist, distance_self] at hsucc
        cases hsucc
      exact h.idxOf_lt_iff (hne hab (h.mem_of_finds hw) hdist)
        (hne (Ne.symm hab) (h.mem_of_finds hu) hdist.symm) hu hw

end FirstEntries

end Entries

def View.positions (v : View N) (flags : Flags) (n : N) : List (Option N) :=
  v.outgoing n ++ if flags.directed then [] else v.incoming n

section InTurn

variable [DecidableEq N] {v : View N} {flags : Flags} {start n : N} {behind order : List N}

/-- Whether the queue of a walk fits the nodes visited. Of the entries ever queued some were taken
up and the rest still wait; the nodes visited are the live ones taken up, each once. -/
def InTurn (v : View N) (flags : Flags) (start : N) (queue order : List N) : Prop :=
  ∃ taken, taken ++ queue = resolved (some start :: order.flatMap (v.positions flags)) ∧
    order = (taken.filter v.contains).eraseDups

theorem inTurn_start (v : View N) (flags : Flags) (start : N) : InTurn v flags start [start] [] :=
  ⟨[], rfl, rfl⟩

theorem InTurn.contains_of_mem {queue : List N} (h : InTurn v flags start queue order)
    (hn : n ∈ order) : v.contains n = true := by
  obtain ⟨taken, -, horder⟩ := h
  rw [horder, List.mem_eraseDups] at hn
  exact (List.mem_filter.mp hn).2

theorem InTurn.drop (h : InTurn v flags start (n :: behind) order)
    (hn : n ∈ order ∨ v.contains n = false) : InTurn v flags start behind order := by
  obtain ⟨taken, hqueued, horder⟩ := h
  refine ⟨taken ++ [n], by rw [List.append_assoc]; exact hqueued, ?_⟩
  rw [List.filter_append]
  cases hlive : v.contains n with
  | false => simpa [hlive] using horder
  | true =>
    have hmem : n ∈ order := hn.resolve_right (by simp [hlive])
    rw [horder, List.mem_eraseDups] at hmem
    rw [List.filter_singleton, hlive, cond_true, eraseDups_append_singleton, if_pos hmem]
    exact horder

theorem InTurn.enter (h : InTurn v flags start (n :: behind) order) (hn : n ∉ order)
    (hlive : v.contains n = true) :
    InTurn v flags start (behind ++ resolved (v.positions flags n)) (order ++ [n]) := by
  obtain ⟨taken, hqueued, horder⟩ := h
  refine ⟨taken ++ [n], ?_, ?_⟩
  · have hmore := congrArg (· ++ resolved (v.positions flags n)) hqueued
    simpa [resolved] using hmore
  · rw [horder, List.mem_eraseDups] at hn
    rw [List.filter_append, List.filter_singleton, hlive, cond_true, eraseDups_append_singleton,
      if_neg hn, ← horder]

end InTurn

section Walks

variable [Ord N] [Std.TransOrd N] [Std.LawfulEqOrd N] [DecidableEq N] {nav : Navigation σ N}
  {v : View N} {flags : Flags} {visit : Visitor σ N ε}

namespace BreadthFirst

omit [Std.LawfulEqOrd N] [Std.TransOrd N] [DecidableEq N] in
theorem Agenda.queue_push (a : Agenda N) (n : N) :
    (a.push v flags n).queue = a.queue ++ resolved (v.positions flags n) := by
  unfold push View.positions
  split <;> simp [resolved]

/-- What a step takes up, when all worlds read as `v` and no call ends the walk: an entry of a node
that was visited before, of one that is not there, or the first entry of one to visit. -/
inductive Takes (v : View N) (flags : Flags) (c d : Course (Agenda N) σ N ε) : Prop where
  | repeated (n : N) (hqueue : c.control.queue = n :: d.control.queue)
    (hn : n ∈ visits c.events.toList)
    (hvisits : visits d.events.toList = visits c.events.toList)
    (hcycles : d.status.cycles.toList =
      c.status.cycles.toList ++ if flags.directed then [] else [n])
  | absent (n : N) (hqueue : c.control.queue = n :: d.control.queue)
    (hgone : v.contains n = false)
    (hvisits : visits d.events.toList = visits c.events.toList)
    (hcycles : d.status.cycles = c.status.cycles)
  | entered (n : N) (behind : List N) (hqueue : c.control.queue = n :: behind)
    (hn : n ∉ visits c.events.toList) (hlive : v.contains n = true)
    (hqueue' : d.control.queue = behind ++ resolved (v.positions flags n))
    (hvisits : visits d.events.toList = visits c.events.toList ++ [n])
    (hcycles : d.status.cycles = c.status.cycles)

omit [Std.LawfulEqOrd N] [DecidableEq N] in
theorem takes_of_step (hvisit : visit.Keeps nav v) (hgoes : visit.GoesOn flags) {start : N}
    {c d : Course (Agenda N) σ N ε}
    (hc : Explored (v.ground nav flags) (fun a m => m ∈ a.visited) (fun a m => m ∈ a.queue) start
      [start] c)
    (hstep : c.step (plan nav flags) (fun _ => visit) id flags = some d) :
    Takes v flags c d := by
  have hcontains := Navigation.contains_of_view (show nav.view c.world = v from hc.inv)
  obtain ⟨hs, ⟨next, cycles, hplan, rfl⟩ | ⟨phase, n, halt, next, hplan, rfl⟩⟩ :=
    Course.step_eq_some hstep
  · obtain ⟨n, behind, hqueue, ⟨hn, rfl, rfl⟩ | ⟨-, hgone, rfl, rfl⟩⟩ := plan_eq_drop hplan
    · refine .repeated n hqueue (((hc.tracks hs).visited_iff n).mp hn) rfl ?_
      simp [Course.drop, Status.addCycles]
    · rw [hcontains] at hgone
      exact .absent n hqueue hgone rfl (by simp [Course.drop])
  · obtain ⟨rfl, behind, hqueue, hn, hlive, rfl, rfl⟩ := plan_eq_call hplan
    have hafter : nav.view (c.event (fun _ => visit) .first n).after = v :=
      hvisit c.world n c.status hc.inv
    rw [hcontains] at hlive
    refine .entered n behind hqueue (fun hmem => hn (((hc.tracks hs).visited_iff n).mpr hmem))
      hlive ?_ ?_ ?_
    · rw [Course.control_call (hgoes c.world n c.status), hafter, Agenda.queue_push]
      rfl
    · rw [Course.events_call, Array.toList_push]
      exact visits_append_singleton _ _
    · simp [Course.call]

structure Queues (nav : Navigation σ N) (v : View N) (flags : Flags) (start : N)
    (c : Course (Agenda N) σ N ε) : Prop where
  explored : Explored (v.ground nav flags) (fun a m => m ∈ a.visited) (fun a m => m ∈ a.queue)
    start [start] c
  inTurn : InTurn v flags start c.control.queue (visits c.events.toList)

theorem Queues.step (hvisit : visit.Keeps nav v) (hgoes : visit.GoesOn flags) {start : N}
    {c d : Course (Agenda N) σ N ε} (hc : Queues nav v flags start c)
    (hstep : c.step (plan nav flags) (fun _ => visit) id flags = some d) :
    Queues nav v flags start d := by
  obtain ⟨hexplored, h⟩ := hc
  refine ⟨hexplored.step (plan_orderly nav flags) (fun _ => hvisit.respects flags) hstep, ?_⟩
  cases takes_of_step hvisit hgoes hexplored hstep with
  | repeated n hqueue hn hvisits _ =>
    rw [hqueue] at h
    rw [hvisits]
    exact h.drop (.inl hn)
  | absent n hqueue hgone hvisits _ =>
    rw [hqueue] at h
    rw [hvisits]
    exact h.drop (.inr hgone)
  | entered n behind hqueue hn hlive hqueue' hvisits _ =>
    rw [hqueue] at h
    rw [hqueue', hvisits]
    exact h.enter hn hlive

theorem queues_course (world : σ) (hvisit : visit.Keeps nav (nav.view world))
    (hgoes : visit.GoesOn flags) (start : N) (limit : Nat) :
    Queues nav (nav.view world) flags start (course nav visit id flags limit world start) := by
  refine iterate_invariant (fun _ _ => Queues.step hvisit hgoes) ⟨?_, ?_⟩ limit
  · exact explored_course (hvisit.respects flags) rfl start [start] (by simp [View.ground]) 0
  · exact inTurn_start (nav.view world) flags start

end BreadthFirst

open BreadthFirst in
theorem breadthFirst_visits {nodes : List N} (world : σ)
    (hvisit : visit.Keeps nav (nav.view world)) (hgoes : visit.GoesOn flags)
    (hnodes : ∀ m, nav.contains world m = true → m ∈ nodes) {limit : Nat}
    (hlimit : (nav.view world).pushes flags nodes ≤ limit) (start : N) :
    let order := visits (breadthFirst (nav.comap Prod.fst) (visit.recorded .first) flags limit
      (world, #[]) start).world.2.toList
    order = ((resolved (some start :: order.flatMap ((nav.view world).positions flags))).filter
      (nav.view world).contains).eraseDups := by
  intro order
  have horder : order = visits (course nav visit id flags limit world start).events.toList :=
    congrArg (fun r => visits r.world.2.toList)
      (breadthFirst_recorded nav visit id flags limit world start)
  have hqueues := queues_course world hvisit hgoes start limit
  have hidle := hqueues.explored.halts.idle (finished_course hvisit hnodes hlimit start)
    (Course.answered_iterate.goesOn fun _ => hgoes)
  obtain ⟨taken, hqueued, hvisits⟩ := hqueues.inTurn
  rw [plan_eq_none hidle.2, List.append_nil] at hqueued
  rw [horder, ← hqueued]
  exact hvisits

end Walks

end Walk

namespace Graph

open Walk

variable {g : Graph} {flags : Flags} {a b : NodeHandle}

theorem WellFormed.mem_positions_iff (hg : g.WellFormed) (a b : NodeHandle) :
    some b ∈ (navigation.view g).positions flags a ↔ g.Joined flags a b := by
  rw [← hg.mem_neighbours_iff, ← mem_resolved]
  rw [View.positions, View.neighbours_eq]
  split <;> simp [resolved, or_comm]

/-- A breadth-first walk that only looks, and that no call ends, visits each node that can be
reached, level by level. -/
theorem breadthFirst_ofHistory_inLevels (κ ε : Type) (id : GraphId) (ops : List Operation)
    (flags : Flags) (h : NodeHandle) :
    let g := ofHistory id ops
    let nav : Navigation (Graph × κ) NodeHandle := navigation.comap Prod.fst
    g.hasNode h = true → ∀ visit : Visitor (Graph × κ) NodeHandle ε,
      visit.Keeps nav (navigation.view g) → visit.GoesOn flags →
        ∀ k limit, g.stepBound ≤ limit →
          let r := breadthFirst (nav.comap Prod.fst) (visit.recorded .first) flags limit
            ((g, k), #[]) h
          InLevels (g.Joined flags) ((navigation.view g).positions flags) h
              (visits r.world.2.toList) ∧
            r.finished = true ∧
            r.mapWorld Prod.fst = breadthFirst nav visit flags limit (g, k) h := by
  intro g nav hh visit hvisit hgoes k limit hlimit r
  have hg : g.WellFormed := ofHistory_wellFormed id ops
  have hpushes : (navigation.view g).pushes flags g.handles ≤ limit := by
    have hbound := g.pushes_le_stepBound flags
    omega
  have hr : Exhausts (navigation.view g) flags h r :=
    breadthFirst_exhausts (g, k) hvisit hgoes (fun _ => mem_handles_of_hasNode) hpushes h
  have hmem : ∀ m, m ∈ visits r.world.2.toList ↔ ReflTransGen (g.Joined flags) h m := by
    intro m
    rw [hg.mem_iff_of_exhausts hr]
    exact and_iff_right hh
  have hlive : ∀ m ∈ resolved (some h :: (visits r.world.2.toList).flatMap
      ((navigation.view g).positions flags)), g.hasNode m = true := by
    intro m hm
    rw [mem_resolved, List.mem_cons, List.mem_flatMap, Option.some_inj] at hm
    obtain rfl | ⟨u, -, hum⟩ := hm
    · exact hh
    · exact (((hg.mem_positions_iff u m).mp hum).hasNode hg).2
  have hentries : FirstEntries ((navigation.view g).positions flags) h
      (visits r.world.2.toList) := by
    have horder := breadthFirst_visits (g, k) hvisit hgoes (fun _ => mem_handles_of_hasNode)
      hpushes h
    exact horder.trans (congrArg List.eraseDups (List.filter_eq_self.mpr hlive))
  refine ⟨hentries.inLevels hg.mem_positions_iff hmem, hr.finished, ?_⟩
  exact breadthFirst_recorded_mapWorld nav visit (fun answer => answer) flags limit (g, k) h

/-- The walk goes both ways. Two nodes lead to `d`, and the one visited first decides; in the list
of the other `e` comes before it. -/
theorem breadthFirst_ofHistory_inLevels_fork :
    let ops : List Operation := [.putNode "a" "", .putNode "b" "", .putNode "c" "",
      .putNode "d" "", .putNode "e" "", .putEdge .default "ac" "" ⟨0⟩ ⟨2⟩,
      .putEdge .default "ba" "" ⟨1⟩ ⟨0⟩, .putEdge .default "be" "" ⟨1⟩ ⟨4⟩,
      .putEdge .default "bd" "" ⟨1⟩ ⟨3⟩, .putEdge .default "cd" "" ⟨2⟩ ⟨3⟩,
      .putEdge .default "ca" "" ⟨2⟩ ⟨0⟩]
    let g := ofHistory ⟨⟨0⟩⟩ ops
    let flags : Flags := { directed := false }
    let visit : Visitor (Graph × Nat) NodeHandle Nat := fun (g, k) _ _ =>
      (if k % 2 = 0 then .proceed else .fail k, g, k + 1)
    let r := breadthFirst ((navigation.comap Prod.fst).comap Prod.fst) (visit.recorded .first) flags
      g.stepBound ((g, 0), #[]) ⟨0⟩
    g.hasNode ⟨0⟩ = true ∧ visit.Keeps (navigation.comap Prod.fst) (navigation.view g) ∧
      visit.GoesOn flags ∧
      InLevels (g.Joined flags) ((navigation.view g).positions flags) ⟨0⟩
        (visits r.world.2.toList) ∧
      visits r.world.2.toList = [⟨0⟩, ⟨2⟩, ⟨1⟩, ⟨3⟩, ⟨4⟩] := by
  intro ops g flags visit r
  have hlive : g.hasNode ⟨0⟩ = true := by decide +kernel
  have hvisit : visit.Keeps (navigation.comap Prod.fst) (navigation.view g) := fun _ _ _ h => h
  have hgoes : visit.GoesOn flags := by
    rintro ⟨g, k⟩ n status
    simp only [visit]
    split <;> rfl
  obtain ⟨hlevels, -⟩ := breadthFirst_ofHistory_inLevels Nat Nat ⟨⟨0⟩⟩ ops flags ⟨0⟩ hlive visit
    hvisit hgoes 0 g.stepBound (Nat.le_refl _)
  exact ⟨hlive, hvisit, hgoes, hlevels, by decide +kernel⟩

end Graph

end Multidigraph
