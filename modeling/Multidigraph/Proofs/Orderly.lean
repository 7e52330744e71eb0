import Multidigraph.Proofs.Agenda
import Multidigraph.Proofs.Reaching

namespace Multidigraph.Walk

variable {σ γ N : Type}

/-- How what a walk has in mind may change from `a` to `b`, when it enters nodes and sees others. -/
structure Turns (visited waiting : γ → N → Prop) (entered seen absent : N → Prop) (a b : γ) :
    Prop where
  visited_iff : ∀ m, visited b m ↔ entered m ∨ visited a m
  waiting_of : ∀ m, waiting b m → waiting a m ∨ seen m
  kept : ∀ m, waiting a m ∨ seen m → waiting b m ∨ visited b m ∨ absent m

/-- Whether a plan takes up the nodes that wait, each once, and drops only those that are visited or
absent. -/
structure Orderly (nav : Navigation σ N) (flags : Flags) (visited waiting : γ → N → Prop)
    (plan : Plan γ σ N) : Prop where
  done : ∀ {a w}, plan a w = none → ∀ m, ¬ waiting a m
  drop : ∀ {a w next cycles}, plan a w = some (.drop next cycles) →
    Turns visited waiting (fun _ => False) (fun _ => False) (nav.contains w · = false) a next
  first : ∀ {a w n halt next}, plan a w = some (.call .first n halt next) →
    nav.contains w n = true ∧ waiting a n ∧ ¬ visited a n
  call : ∀ {a w phase n halt next}, plan a w = some (.call phase n halt next) →
    ∀ w', Turns visited waiting (fun m => phase = .first ∧ m = n)
      (fun m => phase = .first ∧ m ∈ (nav.view w').neighbours flags n) (fun _ => False) a
      (next w').1

variable [Ord N] [Std.TransOrd N] {absent : N → Prop} {n : N}

namespace DepthFirst.Agenda

variable {a : Agenda N} {below : List (Frame N)}

omit [Std.TransOrd N] in
def Waits (a : Agenda N) (m : N) : Prop := .pending m ∈ a.stack

theorem turns_drop (hstack : a.stack = .pending n :: below) (hn : n ∈ a.visited ∨ absent n)
    (warnings : Array (Warning N)) :
    Turns (fun a m => m ∈ a.visited) Waits (fun _ => False) (fun _ => False) absent a
      (a.drop below warnings) := by
  constructor
  case visited_iff => intro m; exact (iff_of_eq (false_or _)).symm
  case waiting_of =>
    intro m hm
    rw [Waits, hstack]
    exact .inl (List.mem_cons_of_mem _ hm)
  case kept =>
    rintro m (hm | hm)
    · rw [Waits, hstack] at hm
      obtain heq | hm := List.mem_cons.mp hm
      · cases heq
        exact .inr hn
      · exact .inl hm
    · cases hm

theorem turns_enter [Std.LawfulEqOrd N] (hstack : a.stack = .pending n :: below) (v : View N)
    (flags : Flags) :
    Turns (fun a m => m ∈ a.visited) Waits (· = n) (· ∈ v.neighbours flags n) absent a
      ((a.enter n below).push v flags n) := by
  have hwaits : ∀ m, Waits ((a.enter n below).push v flags n) m ↔
      (m ∈ v.neighbours flags n ∧ m ∉ (a.enter n below).visited) ∨ .pending m ∈ below := by
    intro m
    simp [Waits, push, pushed, enter, ← Bool.not_eq_true]
  have hvisited : ∀ m, m ∈ ((a.enter n below).push v flags n).visited ↔ m = n ∨ m ∈ a.visited :=
    fun m => mem_insert_iff
  constructor
  case visited_iff => exact hvisited
  case waiting_of =>
    intro m hm
    obtain hm | hm := (hwaits m).mp hm
    · exact .inr hm.1
    · rw [Waits, hstack]
      exact .inl (List.mem_cons_of_mem _ hm)
  case kept =>
    rintro m (hm | hm)
    · rw [Waits, hstack] at hm
      obtain heq | hm := List.mem_cons.mp hm
      · cases heq
        exact .inr (.inl ((hvisited n).mpr (.inl rfl)))
      · exact .inl ((hwaits m).mpr (.inr hm))
    · by_cases hvis : m ∈ (a.enter n below).visited
      · exact .inr (.inl hvis)
      · exact .inl ((hwaits m).mpr (.inl ⟨hm, hvis⟩))

theorem turns_leave (hstack : a.stack = .entered n :: below) :
    Turns (fun a m => m ∈ a.visited) Waits (fun _ => False) (fun _ => False) absent a
      (a.leave n below) := by
  have hwaits : ∀ m, a.Waits m ↔ (a.leave n below).Waits m := by
    intro m
    simp [Waits, hstack, leave]
  constructor
  case visited_iff => intro m; exact (iff_of_eq (false_or _)).symm
  case waiting_of => intro m hm; exact .inl ((hwaits m).mpr hm)
  case kept =>
    rintro m (hm | hm)
    · exact .inl ((hwaits m).mp hm)
    · cases hm

end DepthFirst.Agenda

open DepthFirst in
theorem DepthFirst.plan_orderly [Std.LawfulEqOrd N] (nav : Navigation σ N) (flags : Flags) :
    Orderly nav flags (fun a m => m ∈ a.visited) Agenda.Waits (plan nav flags) := by
  constructor
  case done =>
    intro a w h m
    rw [Agenda.Waits, plan_eq_none h]
    exact List.not_mem_nil
  case drop =>
    intro a w next cycles h
    obtain ⟨n, below, hstack, -, ⟨hn, rfl⟩ | ⟨-, hgone, rfl⟩⟩ := plan_eq_drop h
    · exact Agenda.turns_drop hstack (.inl hn) _
    · exact Agenda.turns_drop hstack (.inr hgone) _
  case first =>
    intro a w n halt next h
    obtain ⟨below, hstack, hn, hv, -, -⟩ := plan_eq_first h
    rw [Agenda.Waits, hstack]
    exact ⟨hv, List.mem_cons_self, hn⟩
  case call =>
    intro a w phase n halt next h w'
    cases phase with
    | first =>
      obtain ⟨below, hstack, -, -, rfl, rfl⟩ := plan_eq_first h
      simpa only [true_and] using Agenda.turns_enter hstack (nav.view w') flags
    | last =>
      obtain ⟨below, hstack, rfl, rfl⟩ := plan_eq_last h
      simpa only [reduceCtorEq, false_and] using Agenda.turns_leave hstack

namespace BreadthFirst.Agenda

variable {a : Agenda N} {behind : List N}

omit [Std.TransOrd N] in
theorem mem_queue_push (v : View N) (flags : Flags) (m : N) :
    m ∈ (a.push v flags n).queue ↔ m ∈ a.queue ∨ m ∈ v.neighbours flags n := by
  unfold push View.neighbours
  split
  · exact List.mem_append
  · simp only [List.mem_append, or_assoc]
    exact or_congr_right or_comm

omit [Std.TransOrd N] in
theorem visited_push (v : View N) (flags : Flags) (n : N) :
    (a.push v flags n).visited = a.visited := by
  unfold push
  split <;> rfl

theorem turns_drop (hqueue : a.queue = n :: behind) (hn : n ∈ a.visited ∨ absent n)
    (warnings : Array (Warning N)) :
    Turns (fun a m => m ∈ a.visited) (fun a m => m ∈ a.queue) (fun _ => False) (fun _ => False)
      absent a (a.drop behind warnings) := by
  constructor
  case visited_iff => intro m; exact (iff_of_eq (false_or _)).symm
  case waiting_of =>
    intro m hm
    rw [hqueue]
    exact .inl (List.mem_cons_of_mem _ hm)
  case kept =>
    rintro m (hm | hm)
    · rw [hqueue] at hm
      obtain rfl | hm := List.mem_cons.mp hm
      · exact .inr hn
      · exact .inl hm
    · cases hm

theorem turns_enter [Std.LawfulEqOrd N] (hqueue : a.queue = n :: behind) (v : View N)
    (flags : Flags) :
    Turns (fun a m => m ∈ a.visited) (fun a m => m ∈ a.queue) (· = n) (· ∈ v.neighbours flags n)
      absent a ((a.enter n behind).push v flags n) := by
  have hvisited : ∀ m, m ∈ ((a.enter n behind).push v flags n).visited ↔
      m = n ∨ m ∈ a.visited := by
    intro m
    rw [visited_push]
    exact DepthFirst.mem_insert_iff
  constructor
  case visited_iff => exact hvisited
  case waiting_of =>
    intro m hm
    rw [hqueue]
    exact ((mem_queue_push v flags m).mp hm).imp_left (List.mem_cons_of_mem _)
  case kept =>
    rintro m (hm | hm)
    · rw [hqueue] at hm
      obtain rfl | hm := List.mem_cons.mp hm
      · exact .inr (.inl ((hvisited m).mpr (.inl rfl)))
      · exact .inl ((mem_queue_push v flags m).mpr (.inl hm))
    · exact .inl ((mem_queue_push v flags m).mpr (.inr hm))

end BreadthFirst.Agenda

open BreadthFirst in
theorem BreadthFirst.plan_orderly [Std.LawfulEqOrd N] (nav : Navigation σ N) (flags : Flags) :
    Orderly nav flags (fun a m => m ∈ a.visited) (fun a m => m ∈ a.queue) (plan nav flags) := by
  constructor
  case done =>
    intro a w h m
    rw [plan_eq_none h]
    exact List.not_mem_nil
  case drop =>
    intro a w next cycles h
    obtain ⟨n, behind, hqueue, ⟨hn, -, rfl⟩ | ⟨-, hgone, -, rfl⟩⟩ := plan_eq_drop h
    · exact Agenda.turns_drop hqueue (.inl hn) _
    · exact Agenda.turns_drop hqueue (.inr hgone) _
  case first =>
    intro a w n halt next h
    obtain ⟨-, behind, hqueue, hn, hv, -, -⟩ := plan_eq_call h
    rw [hqueue]
    exact ⟨hv, List.mem_cons_self, hn⟩
  case call =>
    intro a w phase n halt next h w'
    obtain ⟨rfl, behind, hqueue, -, -, rfl, rfl⟩ := plan_eq_call h
    simpa only [true_and] using Agenda.turns_enter hqueue (nav.view w') flags

end Multidigraph.Walk
