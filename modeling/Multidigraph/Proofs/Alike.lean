import Multidigraph.Proofs.Orderly

namespace Multidigraph.Walk

variable {σ γ γ' N ε : Type}

section Views

def View.towards (v : View N) : Side → N → List (Option N)
  | .outgoing => v.outgoing
  | .incoming => v.incoming

def Flags.follows (flags : Flags) : Side → Bool
  | .outgoing => true
  | .incoming => !flags.directed

theorem Flags.follows_incoming {flags : Flags} (hd : flags.directed = false) :
    flags.follows .incoming = true := by
  rw [follows, hd]
  rfl

/-- Whether two views are the same to a walk that stays in a region, but for the warnings that it
does not keep. -/
structure View.Alike (flags : Flags) (keep : Warning N → Bool) (region : N → Prop)
    (v v' : View N) : Prop where
  contains : ∀ n, region n → v'.contains n = v.contains n
  resolved : ∀ side n, flags.follows side = true → region n →
    Walk.resolved (v'.towards side n) = Walk.resolved (v.towards side n)
  drifts : ∀ side n, flags.follows side = true → region n →
    Walk.drifts side n (v'.towards side n) = (Walk.drifts side n (v.towards side n)).filter keep
  closed : ∀ side n, flags.follows side = true → region n →
    ∀ m ∈ Walk.resolved (v.towards side n), region m

variable {flags : Flags} {keep : Warning N → Bool} {region : N → Prop} {v v' : View N} {n : N}

theorem View.Alike.neighbours (h : View.Alike flags keep region v v') (hn : region n) :
    v'.neighbours flags n = v.neighbours flags n := by
  have hout : Walk.resolved (v'.outgoing n) = Walk.resolved (v.outgoing n) :=
    h.resolved .outgoing n rfl hn
  simp only [View.neighbours_eq]
  cases hd : flags.directed with
  | true => simpa using hout
  | false =>
    have hin : Walk.resolved (v'.incoming n) = Walk.resolved (v.incoming n) :=
      h.resolved .incoming n (Flags.follows_incoming hd) hn
    rw [hin, hout]

theorem View.Alike.drifts_eq (h : View.Alike flags keep region v v') (hn : region n) :
    v'.drifts flags n = (v.drifts flags n).filter keep := by
  have hout : Walk.drifts .outgoing n (v'.outgoing n) =
      (Walk.drifts .outgoing n (v.outgoing n)).filter keep := h.drifts .outgoing n rfl hn
  simp only [View.drifts_eq]
  cases hd : flags.directed with
  | true => simp [hout]
  | false =>
    have hin : Walk.drifts .incoming n (v'.incoming n) =
        (Walk.drifts .incoming n (v.incoming n)).filter keep :=
      h.drifts .incoming n (Flags.follows_incoming hd) hn
    simp [hin, hout]

theorem View.Alike.region_neighbours (h : View.Alike flags keep region v v') (hn : region n) :
    ∀ m ∈ v.neighbours flags n, region m := by
  intro m hm
  rw [View.neighbours_eq] at hm
  cases hd : flags.directed with
  | true =>
    simp only [hd, if_true] at hm
    exact h.closed .outgoing n rfl hn m hm
  | false =>
    simp only [hd, Bool.false_eq_true, if_false, List.mem_append] at hm
    obtain hm | hm := hm
    · exact h.closed .incoming n (Flags.follows_incoming hd) hn m hm
    · exact h.closed .outgoing n rfl hn m hm

end Views

section Courses

/-- Whether two plans make the same move, when the one has `f` of what the other has in mind. What
they have in mind afterwards is so again, if the world is. -/
inductive Move.Alike (f : γ → γ') (inv : γ → Prop) (ok : σ → Prop) :
    Option (Move γ σ N) → Option (Move γ' σ N) → Prop where
  | done : Alike f inv ok none none
  | drop {next : γ} {cycles : List N} (hnext : inv next) :
    Alike f inv ok (some (.drop next cycles)) (some (.drop (f next) cycles))
  | call {phase : Phase} {n : N} {halt : γ} {next : σ → γ × List N} {next' : σ → γ' × List N}
    (hhalt : inv halt) (hnext : ∀ w, ok w → inv (next w).1)
    (hnext' : ∀ w, ok w → next' w = (f (next w).1, (next w).2)) :
    Alike f inv ok (some (.call phase n halt next)) (some (.call phase n (f halt) next'))

def Report.keeping (keep : Warning N → Bool) (r : Report σ N ε) : Report σ N ε :=
  { r with warnings := r.warnings.filter keep }

namespace Course

def mapControl (f : γ → γ') (c : Course γ σ N ε) : Course γ' σ N ε :=
  { c with control := f c.control }

variable {f : γ → γ'} {inv : γ → Prop} {ok : σ → Prop} {plan : Plan γ σ N} {plan' : Plan γ' σ N}
  {visit : Phase → Visitor σ N ε} {heed : Answer ε → Answer ε} {flags : Flags}
  {c d : Course γ σ N ε}

theorem inv_step
    (halike : Move.Alike f inv ok (plan c.control c.world) (plan' (f c.control) c.world))
    (hvisit : ∀ phase w n s, ok w → ok (visit phase w n s).2) (hok : ok c.world)
    (hstep : c.step plan visit heed flags = some d) : inv d.control ∧ ok d.world := by
  generalize plan' (f c.control) c.world = move' at halike
  obtain ⟨-, ⟨next, cycles, hmove, rfl⟩ | ⟨phase, n, halt, next, hmove, rfl⟩⟩ := step_eq_some hstep
  · rw [hmove] at halike
    cases halike with
    | drop hnext => exact ⟨hnext, hok⟩
  · rw [hmove] at halike
    cases halike with
    | call hhalt hnext _ =>
      have hafter : ok (c.event visit phase n).after := hvisit phase c.world n c.status hok
      refine ⟨?_, hafter⟩
      simp only [call]
      split
      · exact hnext _ hafter
      · exact hhalt

theorem call_mapControl {phase : Phase} {n : N} {halt : γ} {next : σ → γ × List N}
    {next' : σ → γ' × List N}
    (hnext : next' (c.event visit phase n).after =
      (f (next (c.event visit phase n).after).1, (next (c.event visit phase n).after).2)) :
    (c.mapControl f).call visit heed flags phase n (f halt) next' =
      (c.call visit heed flags phase n halt next).mapControl f := by
  have hevent : (c.mapControl f).event visit phase n = c.event visit phase n := rfl
  simp only [call, hevent, hnext]
  split <;> rfl

theorem step_mapControl
    (halike : Move.Alike f inv ok (plan c.control c.world) (plan' (f c.control) c.world))
    (hvisit : ∀ phase w n s, ok w → ok (visit phase w n s).2) (hok : ok c.world) :
    (c.mapControl f).step plan' visit heed flags =
      (c.step plan visit heed flags).map (mapControl f) := by
  have hplan' : plan' (c.mapControl f).control (c.mapControl f).world =
      plan' (f c.control) c.world := rfl
  unfold step
  rw [hplan']
  generalize plan c.control c.world = move, plan' (f c.control) c.world = move' at halike
  by_cases hs : c.stopped = true
  · simp [mapControl, hs]
  · rw [if_neg hs, if_neg (show ¬ (c.mapControl f).stopped = true from hs)]
    cases halike with
    | done => rfl
    | drop => rfl
    | call _ _ hnext' =>
      exact congrArg some (call_mapControl (hnext' _ (hvisit _ c.world _ c.status hok)))

theorem report_mapControl {warnings : γ → Array (Warning N)} {warnings' : γ' → Array (Warning N)}
    {keep : Warning N → Bool}
    (hplan : ∀ a w, inv a → ok w → Move.Alike f inv ok (plan a w) (plan' (f a) w))
    (hvisit : ∀ phase w n s, ok w → ok (visit phase w n s).2)
    (hwarnings : ∀ a, warnings' (f a) = (warnings a).filter keep) (hinv : inv c.control)
    (hok : ok c.world) (limit : Nat) :
    (iterate (step plan' visit heed flags) limit (c.mapControl f)).report plan' warnings' =
      ((iterate (step plan visit heed flags) limit c).report plan warnings).keeping keep := by
  induction limit generalizing c with
  | zero =>
    have hfinished : (c.mapControl f).finished plan' = c.finished plan := by
      have hnone := hplan c.control c.world hinv hok
      simp only [finished, mapControl]
      generalize plan c.control c.world = move, plan' (f c.control) c.world = move' at hnone
      cases hnone <;> rfl
    simp only [iterate_zero, report, Report.keeping, hfinished]
    exact congrArg (Report.mk _ _ · _) (hwarnings c.control)
  | succ limit ih =>
    have halike := hplan c.control c.world hinv hok
    have hstep : (c.mapControl f).step plan' visit heed flags = _ :=
      step_mapControl halike hvisit hok
    cases hc : c.step plan visit heed flags with
    | none =>
      rw [hc] at hstep
      have hhere := ih hinv hok
      rwa [iterate_of_none hc, iterate_of_none hstep] at hhere ⊢
    | some d =>
      rw [hc] at hstep
      obtain ⟨hinv', hok'⟩ := inv_step halike hvisit hok hc
      rw [iterate_of_some hc, iterate_of_some hstep]
      exact ih hinv' hok'

end Course

end Courses

section Walks

variable [Ord N] [Std.TransOrd N] {nav nav' : Navigation σ N} {flags : Flags}
  {keep : Warning N → Bool} {region : N → Prop} {ok : σ → Prop} {world : σ} {start : N}

theorem filter_appendList {α : Type} (p : α → Bool) (xs : Array α) (ys : List α) :
    (xs.appendList ys).filter p = (xs.filter p).appendList (ys.filter p) := by
  apply Array.toList_inj.mp
  simp

namespace DepthFirst

omit [Std.TransOrd N] in
def Agenda.keeping (keep : Warning N → Bool) (a : Agenda N) : Agenda N :=
  { a with warnings := a.warnings.filter keep }

omit [Std.TransOrd N] in
def Agenda.Within (region : N → Prop) (a : Agenda N) : Prop :=
  ∀ m, .pending m ∈ a.stack → region m

theorem Agenda.within_push {v : View N} {a : Agenda N} {n : N} (ha : a.Within region)
    (hneighbours : ∀ m ∈ v.neighbours flags n, region m) : (a.push v flags n).Within region := by
  intro m hm
  obtain hm | hm := List.mem_append.mp hm
  · obtain ⟨k, hk, heq⟩ := List.mem_map.mp hm
    cases heq
    exact hneighbours m (List.mem_filter.mp hk).1
  · exact ha m hm

theorem Agenda.keeping_push {v v' : View N} {a : Agenda N} {n : N}
    (halike : View.Alike flags keep region v v') (hn : region n) :
    (a.push v flags n).keeping keep = (a.keeping keep).push v' flags n := by
  simp only [push, keeping, halike.neighbours hn, halike.drifts_eq hn, filter_appendList]

theorem plan_alike (hkeep : ∀ n, keep (.left n) = true)
    (halike : ∀ w, ok w → View.Alike flags keep region (nav.view w) (nav'.view w))
    {a : Agenda N} {world : σ} (hregion : a.Within region) (hok : ok world) :
    Move.Alike (Agenda.keeping keep) (Agenda.Within region) ok (plan nav flags a world)
      (plan nav' flags (a.keeping keep) world) := by
  obtain ⟨stack, visited, path, warnings⟩ := a
  cases stack with
  | nil => exact .done
  | cons frame below =>
    have hbelow : ∀ m, .pending m ∈ below → region m := fun m hm =>
      hregion m (List.mem_cons_of_mem _ hm)
    cases frame with
    | entered n => exact .call hbelow (fun _ _ => hbelow) fun _ _ => rfl
    | pending n =>
      have hn : region n := hregion n List.mem_cons_self
      have hsame : nav'.contains world n = nav.contains world n := (halike world hok).contains n hn
      simp only [plan, Agenda.keeping, hsame]
      split
      · exact .drop hbelow
      · split
        · let entered : Agenda N := ⟨.entered n :: below, visited.insert n, path.insert n, warnings⟩
          have hentered : entered.Within region := by
            intro m hm
            obtain heq | hm := List.mem_cons.mp hm
            · cases heq
            · exact hbelow m hm
          refine .call hentered (fun w hw => ?_) fun w hw => ?_
          · exact Agenda.within_push hentered ((halike w hw).region_neighbours hn)
          · have hpush := Agenda.keeping_push (a := entered) (halike w hw) hn
            have hclosed : (entered.keeping keep).closed (nav'.view w) flags n =
                entered.closed (nav.view w) flags n := by
              simp only [Agenda.closed, Agenda.keeping, (halike w hw).neighbours hn]
            exact Prod.ext hpush.symm hclosed
        · have hleft : (warnings.push (.left n)).filter keep =
              (warnings.filter keep).push (.left n) := by
            simp [hkeep]
          rw [← hleft]
          exact .drop hbelow

end DepthFirst

open DepthFirst in
/-- A depth-first walk does the same where its views are alike. -/
theorem depthFirst_alike {pre post : Visitor σ N ε} (hkeep : ∀ n, keep (.left n) = true)
    (halike : ∀ w, ok w → View.Alike flags keep region (nav.view w) (nav'.view w))
    (hpre : ∀ w n s, ok w → ok (pre w n s).2) (hpost : ∀ w n s, ok w → ok (post w n s).2)
    (hworld : ok world) (hstart : region start) (limit : Nat) :
    depthFirst nav' pre post flags limit world start =
      (depthFirst nav pre post flags limit world start).keeping keep := by
  have hvisit : ∀ phase w n s, ok w → ok (visitors pre post phase w n s).2 := by
    intro phase
    cases phase with
    | first => exact hpre
    | last => exact hpost
  have hwithin : (Agenda.start start).Within region := by
    intro m hm
    cases List.mem_singleton.mp hm
    exact hstart
  have hreport : (course nav' pre post id flags limit world start).report (plan nav' flags)
      Agenda.warnings = ((course nav pre post id flags limit world start).report (plan nav flags)
        Agenda.warnings).keeping keep :=
    Course.report_mapControl (c := .start (.start start) world) (f := Agenda.keeping keep)
      (fun a w ha hw => plan_alike hkeep halike ha hw) hvisit (fun _ => rfl) hwithin hworld limit
  rw [depthFirst_eq_report, depthFirst_eq_report]
  exact congrArg (Report.mapWorld Prod.fst) hreport

namespace BreadthFirst

omit [Std.TransOrd N] in
def Agenda.keeping (keep : Warning N → Bool) (a : Agenda N) : Agenda N :=
  { a with warnings := a.warnings.filter keep }

omit [Std.TransOrd N] in
def Agenda.Within (region : N → Prop) (a : Agenda N) : Prop := ∀ m ∈ a.queue, region m

omit [Std.TransOrd N] in
theorem Agenda.keeping_push {v v' : View N} {a : Agenda N} {n : N}
    (halike : View.Alike flags keep region v v') (hn : region n) :
    (a.push v flags n).keeping keep = (a.keeping keep).push v' flags n := by
  have hout : Walk.resolved (v'.outgoing n) = Walk.resolved (v.outgoing n) :=
    halike.resolved .outgoing n rfl hn
  have hout' : Walk.drifts .outgoing n (v'.outgoing n) =
      (Walk.drifts .outgoing n (v.outgoing n)).filter keep := halike.drifts .outgoing n rfl hn
  cases hd : flags.directed with
  | true => simp only [push, keeping, hd, if_true, hout, hout', filter_appendList]
  | false =>
    have hin : Walk.resolved (v'.incoming n) = Walk.resolved (v.incoming n) :=
      halike.resolved .incoming n (Flags.follows_incoming hd) hn
    have hin' : Walk.drifts .incoming n (v'.incoming n) =
        (Walk.drifts .incoming n (v.incoming n)).filter keep :=
      halike.drifts .incoming n (Flags.follows_incoming hd) hn
    simp only [push, keeping, hd, Bool.false_eq_true, if_false, hout, hout', hin, hin',
      filter_appendList]

theorem plan_alike (hkeep : ∀ n, keep (.left n) = true)
    (halike : ∀ w, ok w → View.Alike flags keep region (nav.view w) (nav'.view w))
    {a : Agenda N} {world : σ} (hregion : a.Within region) (hok : ok world) :
    Move.Alike (Agenda.keeping keep) (Agenda.Within region) ok (plan nav flags a world)
      (plan nav' flags (a.keeping keep) world) := by
  obtain ⟨queue, visited, warnings⟩ := a
  cases queue with
  | nil => exact .done
  | cons n behind =>
    have hbehind : ∀ m ∈ behind, region m := fun m hm => hregion m (List.mem_cons_of_mem _ hm)
    have hn : region n := hregion n List.mem_cons_self
    have hsame : nav'.contains world n = nav.contains world n := (halike world hok).contains n hn
    simp only [plan, Agenda.keeping, hsame]
    split
    · exact .drop hbehind
    · split
      · let entered : Agenda N := ⟨behind, visited.insert n, warnings⟩
        refine .call hbehind (fun w hw m hm => ?_) fun w hw => ?_
        · obtain hm | hm := (Agenda.mem_queue_push (nav.view w) flags m).mp hm
          · exact hbehind m hm
          · exact (halike w hw).region_neighbours hn m hm
        · have hpush := Agenda.keeping_push (a := entered) (halike w hw) hn
          exact Prod.ext hpush.symm rfl
      · have hleft : (warnings.push (.left n)).filter keep =
            (warnings.filter keep).push (.left n) := by
          simp [hkeep]
        rw [← hleft]
        exact .drop hbehind

end BreadthFirst

open BreadthFirst in
theorem breadthFirst_alike {visit : Visitor σ N ε} (hkeep : ∀ n, keep (.left n) = true)
    (halike : ∀ w, ok w → View.Alike flags keep region (nav.view w) (nav'.view w))
    (hvisit : ∀ w n s, ok w → ok (visit w n s).2) (hworld : ok world) (hstart : region start)
    (limit : Nat) :
    breadthFirst nav' visit flags limit world start =
      (breadthFirst nav visit flags limit world start).keeping keep := by
  have hwithin : (Agenda.start start).Within region := by
    intro m hm
    rw [List.mem_singleton.mp hm]
    exact hstart
  have hreport : (course nav' visit id flags limit world start).report (plan nav' flags)
      Agenda.warnings = ((course nav visit id flags limit world start).report (plan nav flags)
        Agenda.warnings).keeping keep :=
    Course.report_mapControl (c := .start (.start start) world) (f := Agenda.keeping keep)
      (fun a w ha hw => plan_alike hkeep halike ha hw) (fun _ => hvisit) (fun _ => rfl) hwithin
      hworld limit
  rw [breadthFirst_eq_report, breadthFirst_eq_report]
  exact congrArg (Report.mapWorld Prod.fst) hreport

end Walks

end Multidigraph.Walk
