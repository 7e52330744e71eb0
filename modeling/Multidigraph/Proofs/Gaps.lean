import Multidigraph.Proofs.Alike
import Multidigraph.Proofs.Drift

namespace Multidigraph.Walk

variable {σ γ N ε : Type}

/-- The same worlds, read without the positions that lead nowhere. -/
def Navigation.trimmed (nav : Navigation σ N) : Navigation σ N where
  contains := nav.contains
  outgoing w n := (nav.outgoing w n).filter Option.isSome
  incoming w n := (nav.incoming w n).filter Option.isSome

def Warning.isDrift : Warning N → Bool
  | .left _ => false
  | .drift _ _ _ => true

section Lists

variable {side side' : Side} {n m : N} {i : Nat} {positions : List (Option N)}

theorem resolved_filter_isSome (positions : List (Option N)) :
    resolved (positions.filter Option.isSome) = resolved positions := by
  rw [resolved, resolved, List.filterMap_filter]
  congr 1
  funext position
  cases position <;> rfl

theorem drifts_filter_isSome (side : Side) (n : N) (positions : List (Option N)) :
    drifts side n (positions.filter Option.isSome) = [] := by
  refine drifts_eq_nil (fun position hposition => ?_) side n
  exact Option.isSome_iff_exists.mp (List.mem_filter.mp hposition).2

theorem mem_drifts_iff {warning : Warning N} :
    warning ∈ drifts side n positions ↔
      ∃ i, warning = .drift side n i ∧ positions[i]? = some none := by
  simp only [drifts, List.mem_filterMap, Prod.exists, List.mem_zipIdx_iff_getElem?]
  constructor
  · rintro ⟨position, i, hi, hwarning⟩
    cases position with
    | some m => cases hwarning
    | none => exact ⟨i, (Option.some.inj hwarning).symm, hi⟩
  · rintro ⟨i, rfl, hi⟩
    exact ⟨none, i, hi, rfl⟩

theorem nodup_drifts (side : Side) (n : N) (positions : List (Option N)) :
    (drifts side n positions).Nodup := by
  have hindices : (positions.zipIdx.map Prod.snd).Nodup := by
    rw [List.zipIdx_map_snd]
    exact List.nodup_range'
  refine List.Pairwise.filterMap _ ?_ (List.pairwise_map.mp hindices)
  rintro ⟨p, i⟩ ⟨q, j⟩ hij _ hwarning _ hwarning' rfl
  obtain ⟨-, hi⟩ := Option.ite_none_right_eq_some.mp hwarning
  obtain ⟨-, hj⟩ := Option.ite_none_right_eq_some.mp hwarning'
  cases hi.trans hj.symm
  exact hij rfl

/-- What a walk warns of when it expands a node. -/
def View.gaps (v : View N) (flags : Flags) (n : N) : List (Warning N) :=
  Walk.drifts .outgoing n (v.outgoing n) ++
    if flags.directed then [] else Walk.drifts .incoming n (v.incoming n)

theorem View.mem_gaps_iff {v : View N} {flags : Flags} {warning : Warning N} :
    warning ∈ v.gaps flags n ↔ ∃ side i, warning = .drift side n i ∧ flags.follows side = true ∧
      (v.towards side n)[i]? = some none := by
  simp only [gaps, List.mem_append, mem_drifts_iff]
  constructor
  · rintro (⟨i, rfl, hi⟩ | hin)
    · exact ⟨.outgoing, i, rfl, rfl, hi⟩
    · cases hd : flags.directed with
      | true => simp [hd] at hin
      | false =>
        simp only [hd, Bool.false_eq_true, if_false, mem_drifts_iff] at hin
        obtain ⟨i, rfl, hi⟩ := hin
        exact ⟨.incoming, i, rfl, Flags.follows_incoming hd, hi⟩
  · rintro ⟨side, i, rfl, hfollows, hi⟩
    cases side with
    | outgoing => exact .inl ⟨i, rfl, hi⟩
    | incoming =>
      have hd : flags.directed = false := by simpa [Flags.follows] using hfollows
      simp only [hd, Bool.false_eq_true, if_false, mem_drifts_iff]
      exact .inr ⟨i, rfl, hi⟩

theorem View.nodup_gaps (v : View N) (flags : Flags) (n : N) : (v.gaps flags n).Nodup := by
  unfold gaps
  split
  · simpa using nodup_drifts .outgoing n (v.outgoing n)
  · refine List.nodup_append.mpr ⟨nodup_drifts _ _ _, nodup_drifts _ _ _, fun a ha b hb => ?_⟩
    obtain ⟨i, rfl, -⟩ := mem_drifts_iff.mp ha
    obtain ⟨j, rfl, -⟩ := mem_drifts_iff.mp hb
    exact nofun

end Lists

section Trimmed

variable {nav : Navigation σ N} {flags : Flags}

theorem trimmed_alike (nav : Navigation σ N) (flags : Flags) (w : σ) :
    View.Alike flags (fun warning => !warning.isDrift) (fun _ => True) (nav.view w)
      (nav.trimmed.view w) := by
  have hdrifts : ∀ (side : Side) (n : N) positions,
      (drifts side n positions).filter (fun warning => !warning.isDrift) = [] := by
    intro side n positions
    refine List.filter_eq_nil_iff.mpr fun warning hwarning => ?_
    obtain ⟨i, rfl, -⟩ := mem_drifts_iff.mp hwarning
    simp [Warning.isDrift]
  constructor
  case contains => intro n _; rfl
  case resolved =>
    intro side n _ _
    cases side <;> exact resolved_filter_isSome _
  case drifts =>
    intro side n _ _
    rw [hdrifts]
    cases side <;> exact drifts_filter_isSome _ _ _
  case closed => intros; trivial

end Trimmed

section Warned

/-- The calls after which a walk goes on to the neighbours of a node. -/
def expansions (flags : Flags) (events : List (Event σ N ε)) : List (Event σ N ε) :=
  events.filter fun e => e.phase = .first ∧ flags.goesOn e.answer

theorem expansions_append_singleton (flags : Flags) (events : List (Event σ N ε))
    (e : Event σ N ε) : expansions flags (events ++ [e]) = expansions flags events ++
      if e.phase = .first ∧ flags.goesOn e.answer = true then [e] else [] := by
  rw [expansions, List.filter_append]
  by_cases he : e.phase = .first ∧ flags.goesOn e.answer = true <;> simp [expansions, he]

def drifted (warnings : Array (Warning N)) : List (Warning N) :=
  warnings.toList.filter Warning.isDrift

/-- Whether a plan warns of positions only when it expands a node, and then of each position of the
node that leads nowhere. -/
structure Minds (nav : Navigation σ N) (flags : Flags) (warnings : γ → Array (Warning N))
    (plan : Plan γ σ N) : Prop where
  drop : ∀ {a w next cycles}, plan a w = some (.drop next cycles) →
    drifted (warnings next) = drifted (warnings a)
  halt : ∀ {a w phase n halt next}, plan a w = some (.call phase n halt next) →
    warnings halt = warnings a
  first : ∀ {a w n halt next}, plan a w = some (.call .first n halt next) → ∀ w',
    (drifted (warnings (next w').1)).Perm (drifted (warnings a) ++ (nav.view w').gaps flags n)
  last : ∀ {a w n halt next}, plan a w = some (.call .last n halt next) → ∀ w',
    warnings (next w').1 = warnings a

variable {nav : Navigation σ N} {flags : Flags} {warnings : γ → Array (Warning N)}
  {plan : Plan γ σ N} {visit : Phase → Visitor σ N ε} {c d : Course γ σ N ε}

def Course.Minded (nav : Navigation σ N) (flags : Flags) (warnings : γ → Array (Warning N))
    (c : Course γ σ N ε) : Prop :=
  (drifted (warnings c.control)).Perm
    ((expansions flags c.events.toList).flatMap fun e => (nav.view e.after).gaps flags e.node)

theorem Course.Minded.step (h : c.Minded nav flags warnings) (hplan : Minds nav flags warnings plan)
    (hstep : c.step plan visit id flags = some d) : d.Minded nav flags warnings := by
  obtain ⟨-, ⟨next, cycles, hmove, rfl⟩ | ⟨phase, n, halt, next, hmove, rfl⟩⟩ :=
    step_eq_some hstep
  · exact (List.Perm.of_eq (hplan.drop hmove)).trans h
  · let e := c.event visit phase n
    let after := (c.call visit id flags phase n halt next).control
    change (drifted (warnings after)).Perm _
    rw [events_call, Array.toList_push, expansions_append_singleton, List.flatMap_append]
    by_cases hexpands : e.phase = .first ∧ flags.goesOn e.answer = true
    · rw [if_pos hexpands]
      obtain ⟨rfl, hgo⟩ : phase = .first ∧ flags.goesOn e.answer = true := hexpands
      have hafter : after = (next e.after).1 := control_call hgo
      rw [hafter, List.flatMap_singleton]
      exact (hplan.first hmove e.after).trans (h.append_right _)
    · have hsame : warnings after = warnings c.control := by
        cases hgo : flags.goesOn e.answer with
        | false =>
          have hafter : after = halt := by simp [after, call, e, hgo]
          rw [hafter, hplan.halt hmove]
        | true =>
          have hafter : after = (next e.after).1 := control_call hgo
          cases phase with
          | first => exact absurd ⟨rfl, hgo⟩ hexpands
          | last => rw [hafter, hplan.last hmove]
      rw [if_neg hexpands, hsame, List.flatMap_nil, List.append_nil]
      exact h

theorem Course.minded_iterate (hplan : Minds nav flags warnings plan) {control : γ}
    (hcontrol : warnings control = #[]) (world : σ) (limit : Nat) :
    (iterate (step plan visit id flags) limit (start control world)).Minded nav flags warnings := by
  refine iterate_invariant (fun _ _ hc => hc.step hplan) ?_ limit
  simp [Minded, start, drifted, expansions, hcontrol]

theorem Course.nodup_visits {visited waiting : γ → N → Prop}
    (hplan : Orderly nav flags visited waiting plan) {control : γ}
    (hcontrol : ∀ m, ¬ visited control m) (world : σ) (limit : Nat) :
    (visits
      (iterate (step plan visit id flags) limit (start control world)).events.toList).Nodup := by
  let inv : Course γ σ N ε → Prop := fun c => (visits c.events.toList).Nodup ∧
    (c.stopped = false → ∀ m, visited c.control m ↔ m ∈ visits c.events.toList)
  have hstart : inv (start control world) :=
    ⟨List.nodup_nil, fun _ m => iff_of_false (hcontrol m) List.not_mem_nil⟩
  have hinv : ∀ c d, inv c → c.step plan visit id flags = some d → inv d := by
    rintro c d ⟨hnodup, hvisited⟩ hstep
    obtain ⟨hs, ⟨next, cycles, hmove, rfl⟩ | ⟨phase, n, halt, next, hmove, rfl⟩⟩ :=
      step_eq_some hstep
    · refine ⟨hnodup, fun _ m => ?_⟩
      exact (((hplan.drop hmove).visited_iff m).trans (iff_of_eq (false_or _))).trans
        (hvisited hs m)
    · refine ⟨?_, fun hgo m => ?_⟩
      · rw [events_call, Array.toList_push]
        refine nodup_visits_append_singleton hnodup fun hfirst => ?_
        obtain rfl : phase = .first := hfirst
        exact mt (hvisited hs n).mpr (hplan.first hmove).2.2
      · have hcontrol : (c.call visit id flags phase n halt next).control = _ :=
          control_call (by simpa using hgo)
        rw [hcontrol, (hplan.call hmove _).visited_iff, hvisited hs, events_call, Array.toList_push,
          mem_visits_append_singleton]
        rfl
  exact (iterate_invariant hinv hstart limit).1

end Warned

section Plans

theorem drifted_push_left (warnings : Array (Warning N)) (n : N) :
    drifted (warnings.push (.left n)) = drifted warnings := by
  simp [drifted, Warning.isDrift]

theorem View.drifts_perm_gaps (v : View N) (flags : Flags) (n : N) :
    (v.drifts flags n).Perm (v.gaps flags n) := by
  rw [View.drifts_eq, View.gaps]
  split
  · rw [List.append_nil]
    exact List.reverse_perm _
  · exact (List.reverse_perm _).append (List.reverse_perm _)

theorem drifted_appendList_perm {v : View N} {flags : Flags} {n : N} {found : List (Warning N)}
    (hfound : found.Perm (v.gaps flags n)) (warnings : Array (Warning N)) :
    (drifted (warnings.appendList found)).Perm (drifted warnings ++ v.gaps flags n) := by
  have hall : (v.gaps flags n).filter Warning.isDrift = v.gaps flags n := by
    refine List.filter_eq_self.mpr fun warning hwarning => ?_
    obtain ⟨side, i, rfl, -⟩ := View.mem_gaps_iff.mp hwarning
    rfl
  have happend : drifted (warnings.appendList found) =
      drifted warnings ++ found.filter Warning.isDrift := by
    simp [drifted]
  rw [happend]
  exact ((hfound.filter _).trans (.of_eq hall)).append_left _

variable [Ord N] [Std.TransOrd N]

open DepthFirst in
theorem DepthFirst.plan_minds (nav : Navigation σ N) (flags : Flags) :
    Minds nav flags Agenda.warnings (plan nav flags) := by
  constructor
  case drop =>
    intro a w next cycles h
    obtain hsame | ⟨n, hpush, -⟩ := (plan_cautious nav flags).drop h
    · rw [hsame]
    · rw [hpush, drifted_push_left]
  case halt => exact fun h => ((plan_cautious nav flags).call h).1
  case first =>
    intro a w n halt next h w'
    obtain ⟨below, -, -, -, rfl, rfl⟩ := plan_eq_first h
    exact drifted_appendList_perm ((nav.view w').drifts_perm_gaps flags n) a.warnings
  case last =>
    intro a w n halt next h w'
    obtain ⟨below, -, rfl, rfl⟩ := plan_eq_last h
    rfl

open BreadthFirst in
theorem BreadthFirst.plan_minds (nav : Navigation σ N) (flags : Flags) :
    Minds nav flags Agenda.warnings (plan nav flags) := by
  constructor
  case drop =>
    intro a w next cycles h
    obtain hsame | ⟨n, hpush, -⟩ := (plan_cautious nav flags).drop h
    · rw [hsame]
    · rw [hpush, drifted_push_left]
  case halt => exact fun h => ((plan_cautious nav flags).call h).1
  case first =>
    intro a w n halt next h w'
    obtain ⟨-, behind, -, -, -, rfl, rfl⟩ := plan_eq_call h
    have hwarnings : ((a.enter n behind).push (nav.view w') flags n).warnings =
        a.warnings.appendList ((nav.view w').gaps flags n) := by
      cases hd : flags.directed with
      | true => simp [Agenda.push, Agenda.enter, View.gaps, hd]
      | false =>
        simp only [Agenda.push, View.gaps, hd, Bool.false_eq_true, if_false, appendList_append]
        rfl
    rw [hwarnings]
    exact drifted_appendList_perm (.refl _) a.warnings
  case last =>
    intro a w n halt next h
    cases (plan_eq_call h).1

end Plans

/-- How the walks over the same worlds with and without positions that lead nowhere compare, when
they make reports with records of their calls. -/
structure PassesOver (nav : Navigation σ N) (flags : Flags)
    (whole trimmed : Report (σ × Array (Event σ N ε)) N ε) : Prop where
  world : whole.world = trimmed.world
  status : whole.status = trimmed.status
  finished : whole.finished = trimmed.finished
  others : whole.warnings.toList.filter (fun warning => !warning.isDrift) = trimmed.warnings.toList
  silent : ∀ warning ∈ trimmed.warnings.toList, warning.isDrift = false
  once : (drifted whole.warnings).Nodup
  /-- The positions that lead nowhere are warned of when their node is expanded. -/
  drift_iff : ∀ side n i, .drift side n i ∈ whole.warnings.toList ↔
    ∃ e ∈ whole.world.2.toList, e.phase = .first ∧ e.node = n ∧ flags.goesOn e.answer = true ∧
      flags.follows side = true ∧ ((nav.view e.after).towards side n)[i]? = some none

theorem Course.passesOver {nav : Navigation σ N} {flags : Flags} {warnings : γ → Array (Warning N)}
    {c : Course γ σ N ε} (hminded : c.Minded nav flags warnings)
    (hvisits : (visits c.events.toList).Nodup) (plan : Plan γ σ N) :
    PassesOver nav flags (c.report plan warnings)
      ((c.report plan warnings).keeping fun warning => !warning.isDrift) := by
  constructor
  case world => rfl
  case status => rfl
  case finished => rfl
  case others => exact Array.toList_filter.symm
  case silent =>
    intro warning hwarning
    simpa using (Array.mem_filter.mp (Array.mem_toList_iff.mp hwarning)).2
  case once =>
    have hnodes : (expansions flags c.events.toList).Pairwise fun d e => d.node ≠ e.node := by
      have hfirst := List.pairwise_map.mp hvisits
      rw [List.pairwise_filter] at hfirst
      refine List.pairwise_filter.mpr (hfirst.imp fun hne hd he => ?_)
      simp only [Bool.decide_and, Bool.and_eq_true, decide_eq_true_iff] at hd he
      exact hne (by simpa using hd.1) (by simpa using he.1)
    refine hminded.nodup_iff.mpr (List.nodup_flatMap.mpr ⟨fun e _ => View.nodup_gaps _ _ _, ?_⟩)
    refine hnodes.imp fun hne warning hd he => ?_
    obtain ⟨side, i, rfl, -⟩ := View.mem_gaps_iff.mp hd
    obtain ⟨side', j, heq, -⟩ := View.mem_gaps_iff.mp he
    exact hne (Warning.drift.inj heq).2.1
  case drift_iff =>
    intro side n i
    have hdrifted : .drift side n i ∈ (warnings c.control).toList ↔
        .drift side n i ∈ drifted (warnings c.control) := by
      simp [drifted, Warning.isDrift]
    refine hdrifted.trans (hminded.mem_iff.trans ?_)
    simp only [List.mem_flatMap, expansions, List.mem_filter, View.mem_gaps_iff, Bool.decide_and,
      Bool.and_eq_true, decide_eq_true_iff]
    constructor
    · rintro ⟨e, ⟨he, hfirst, hgo⟩, side', j, heq, hfollows, hj⟩
      cases heq
      exact ⟨e, he, hfirst, rfl, hgo, hfollows, hj⟩
    · rintro ⟨e, he, hfirst, rfl, hgo, hfollows, hi⟩
      exact ⟨e, ⟨he, hfirst, hgo⟩, side, i, rfl, hfollows, hi⟩

variable [Ord N] [Std.TransOrd N] [Std.LawfulEqOrd N]

open DepthFirst in
theorem depthFirst_passesOver (nav : Navigation σ N) (pre post : Visitor σ N ε) (flags : Flags)
    (limit : Nat) (world : σ) (start : N) :
    let walk := fun nav : Navigation σ N => depthFirst (nav.comap Prod.fst) (pre.recorded .first)
      (post.recorded .last) flags limit (world, #[]) start
    PassesOver nav flags (walk nav) (walk nav.trimmed) := by
  intro walk
  have htrimmed : walk nav.trimmed = (walk nav).keeping fun warning => !warning.isDrift :=
    depthFirst_alike (fun _ => rfl) (fun w (_ : True) => trimmed_alike (nav.comap Prod.fst) flags w)
      (fun _ _ _ h => h) (fun _ _ _ h => h) trivial trivial limit
  have hcourse : walk nav = (course nav pre post id flags limit world start).report
      (plan nav flags) Agenda.warnings :=
    depthFirst_recorded nav pre post id flags limit world start
  rw [htrimmed, hcourse]
  refine Course.passesOver (Course.minded_iterate (plan_minds nav flags) rfl world limit) ?_ _
  exact Course.nodup_visits (plan_orderly nav flags)
    (fun _ => Std.ExtTreeSet.not_mem_empty) world limit

open BreadthFirst in
theorem breadthFirst_passesOver (nav : Navigation σ N) (visit : Visitor σ N ε) (flags : Flags)
    (limit : Nat) (world : σ) (start : N) :
    let walk := fun nav : Navigation σ N => breadthFirst (nav.comap Prod.fst)
      (visit.recorded .first) flags limit (world, #[]) start
    PassesOver nav flags (walk nav) (walk nav.trimmed) := by
  intro walk
  have htrimmed : walk nav.trimmed = (walk nav).keeping fun warning => !warning.isDrift :=
    breadthFirst_alike (fun _ => rfl)
      (fun w (_ : True) => trimmed_alike (nav.comap Prod.fst) flags w) (fun _ _ _ h => h) trivial
      trivial limit
  have hcourse : walk nav = (course nav visit id flags limit world start).report
      (plan nav flags) Agenda.warnings := breadthFirst_recorded nav visit id flags limit world start
  rw [htrimmed, hcourse]
  refine Course.passesOver (Course.minded_iterate (plan_minds nav flags) rfl world limit) ?_ _
  exact Course.nodup_visits (plan_orderly nav flags)
    (fun _ => Std.ExtTreeSet.not_mem_empty) world limit

/-- Both walks pass over positions that lead nowhere. At each number of steps, they have made the
same calls with the same status as the walks over the same worlds without these positions, and come
to the same failures and cycles; but they have warned of each of the positions, once for each, in
the lists of the nodes that they have expanded. The record of the calls changes nothing about a
walk. -/
theorem walks_pass_over_gaps (nav : Navigation σ N) (pre post visit : Visitor σ N ε)
    (flags : Flags) (limit : Nat) (world : σ) (start : N) :
    let deep := fun nav : Navigation σ N => depthFirst (nav.comap Prod.fst) (pre.recorded .first)
      (post.recorded .last) flags limit (world, #[]) start
    let broad := fun nav : Navigation σ N => breadthFirst (nav.comap Prod.fst)
      (visit.recorded .first) flags limit (world, #[]) start
    (PassesOver nav flags (deep nav) (deep nav.trimmed) ∧
      ∀ nav, (deep nav).mapWorld Prod.fst = depthFirst nav pre post flags limit world start) ∧
    (PassesOver nav flags (broad nav) (broad nav.trimmed) ∧
      ∀ nav, (broad nav).mapWorld Prod.fst = breadthFirst nav visit flags limit world start) := by
  intro deep broad
  refine ⟨⟨depthFirst_passesOver nav pre post flags limit world start, fun nav => ?_⟩,
    breadthFirst_passesOver nav visit flags limit world start, fun nav => ?_⟩
  · exact depthFirst_recorded_mapWorld nav pre post id flags limit world start
  · exact breadthFirst_recorded_mapWorld nav visit id flags limit world start

/-- Three nodes in a row, each with positions that lead nowhere before and after the one that leads
on, and calls that count and fail. -/
theorem walks_pass_over_gaps_row :
    let nav : Navigation Nat Nat := ⟨fun _ n => n < 3, fun _ n => [none, some (n + 1), none],
      fun _ n => [none, some (n - 1)]⟩
    let count : Visitor Nat Nat Nat := fun w _ _ => (.fail w, w + 1)
    let deep := fun nav : Navigation Nat Nat => depthFirst (nav.comap Prod.fst)
      (count.recorded .first) (count.recorded .last) {} 20 (0, #[]) 1
    let broad := fun nav : Navigation Nat Nat => breadthFirst (nav.comap Prod.fst)
      (count.recorded .first) { directed := false } 20 (0, #[]) 1
    (PassesOver nav {} (deep nav) (deep nav.trimmed) ∧
      ∀ nav, (deep nav).mapWorld Prod.fst = depthFirst nav count count {} 20 0 1) ∧
    (PassesOver nav { directed := false } (broad nav) (broad nav.trimmed) ∧
      ∀ nav, (broad nav).mapWorld Prod.fst =
        breadthFirst nav count { directed := false } 20 0 1) ∧
    (deep nav).warnings = #[.drift .outgoing 1 2, .drift .outgoing 1 0, .drift .outgoing 2 2,
      .drift .outgoing 2 0, .left 3] ∧
    (deep nav.trimmed).warnings = #[.left 3] := by
  intro nav count deep broad
  obtain ⟨hdeep, -⟩ := walks_pass_over_gaps nav count count count {} 20 0 1
  obtain ⟨-, hbroad⟩ := walks_pass_over_gaps nav count count count { directed := false } 20 0 1
  exact ⟨hdeep, hbroad, by decide +kernel, by decide +kernel⟩

end Multidigraph.Walk
