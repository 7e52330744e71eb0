import Mathlib.Data.List.Nodup
import Multidigraph.Proofs.Agenda
import Multidigraph.Proofs.Reaching

namespace Multidigraph.Walk

variable {σ N ε : Type}

section Brackets

inductive Nested : List (Phase × N) → Prop
  | nil : Nested []
  | node (n : N) {inner} (h : Nested inner) : Nested ((.first, n) :: inner ++ [(.last, n)])
  | append {cs ds} (hc : Nested cs) (hd : Nested ds) : Nested (cs ++ ds)

/-- Whether calls nest, save that the nodes of a path are still open; its head was opened last. -/
inductive Opens : List (Phase × N) → List N → Prop
  | nested {cs} (h : Nested cs) : Opens cs []
  | inside {outer path} (n : N) {inner} (ho : Opens outer path) (hi : Nested inner) :
      Opens (outer ++ (.first, n) :: inner) (n :: path)

variable {cs ds : List (Phase × N)} {path : List N} {n : N}

theorem Opens.append_nested (h : Opens cs path) (hd : Nested ds) : Opens (cs ++ ds) path := by
  cases h with
  | nested hc => exact .nested (hc.append hd)
  | inside n ho hi =>
    rw [List.append_assoc]
    exact .inside n ho (hi.append hd)

theorem Opens.first (h : Opens cs path) (n : N) : Opens (cs ++ [(.first, n)]) (n :: path) :=
  .inside n h .nil

theorem Opens.last (h : Opens cs (n :: path)) : Opens (cs ++ [(.last, n)]) path := by
  cases h with
  | inside _ ho hi =>
    rw [List.append_assoc]
    exact ho.append_nested (.node n hi)

theorem Opens.close (h : Opens cs path) : Nested (cs ++ path.map (.last, ·)) := by
  induction path generalizing cs with
  | nil =>
    cases h with
    | nested hc => rwa [List.map_nil, List.append_nil]
  | cons n path ih =>
    have hrest := ih h.last
    rwa [List.append_assoc] at hrest

theorem Opens.exists_inner (h : Opens cs (n :: path)) :
    ∃ outer inner, cs = outer ++ (.first, n) :: inner ∧ Nested inner := by
  cases h with
  | inside _ _ hi => exact ⟨_, _, rfl, hi⟩

end Brackets

def Event.bracket (e : Event σ N ε) : Phase × N := (e.phase, e.node)

def brackets (events : List (Event σ N ε)) : List (Phase × N) := events.map Event.bracket

/-- Whether a call of a last visit closes the node opened last. -/
def ClosesInnermost (earlier : List (Event σ N ε)) (e : Event σ N ε) : Prop :=
  e.phase = .last →
    ∃ outer inner, brackets earlier = outer ++ (.first, e.node) :: inner ∧ Nested inner

def isOpen [DecidableEq N] (cs : List (Phase × N)) (n : N) : Bool :=
  cs.contains (.first, n) && !cs.contains (.last, n)

def cyclesAt (later : List (Event σ N ε)) (final : Status N ε) : List N :=
  ((later.head?.map fun e => e.status).getD final).cycles.toList

/-- The neighbours of `n` in the order in which a depth-first walk looks at them: from the last
outgoing position to the first, and from the last incoming one to the first if edges are followed
both ways. -/
def lookedAt (nav : Navigation σ N) (flags : Flags) (world : σ) (n : N) : List N :=
  (resolved (nav.outgoing world n)).reverse ++
    if flags.directed then [] else (resolved (nav.incoming world n)).reverse

theorem reverse_neighbours (nav : Navigation σ N) (flags : Flags) (world : σ) (n : N) :
    ((nav.view world).neighbours flags n).reverse = lookedAt nav flags world n := by
  unfold View.neighbours lookedAt
  split
  · exact (List.append_nil _).symm
  · exact List.reverse_append

/-- The cycles found after a call, when these calls were made before it. -/
def found [DecidableEq N] (nav : Navigation σ N) (flags : Flags) (earlier : List (Event σ N ε))
    (e : Event σ N ε) : List N :=
  if e.phase = .first ∧ flags.goesOn e.answer = true then
    (lookedAt nav flags e.after e.node).filter (isOpen (brackets (earlier ++ [e])))
  else []

theorem cyclesAt_append_singleton (later : List (Event σ N ε)) (e : Event σ N ε)
    (final : Status N ε) : cyclesAt (later ++ [e]) final = cyclesAt later e.status := by
  cases later <;> rfl

namespace DepthFirst

def Frame.entered? {N : Type} : Frame N → Option N
  | .pending _ => none
  | .entered n => some n

namespace Agenda

variable [Ord N] [Std.TransOrd N] {a b : Agenda N} {cs : List (Phase × N)} {n : N}
  {below : List (Frame N)}

omit [Std.TransOrd N] in
def openNodes (a : Agenda N) : List N := a.stack.filterMap Frame.entered?

omit [Std.TransOrd N] in
theorem openNodes_drop (hstack : a.stack = .pending n :: below) (warnings : Array (Warning N)) :
    (a.drop below warnings).openNodes = a.openNodes := by
  rw [openNodes, openNodes, hstack]
  rfl

theorem openNodes_enter (hstack : a.stack = .pending n :: below) :
    (a.enter n below).openNodes = n :: a.openNodes := by
  rw [openNodes, openNodes, hstack]
  rfl

theorem openNodes_leave (hstack : a.stack = .entered n :: below) :
    a.openNodes = n :: (a.leave n below).openNodes := by
  rw [openNodes, openNodes, hstack]
  rfl

theorem openNodes_push (v : View N) (flags : Flags) (n : N) :
    (a.push v flags n).openNodes = a.openNodes := by
  have hpending : ∀ ns : List N, (ns.map Frame.pending).filterMap Frame.entered? = [] := by
    intro ns
    rw [List.filterMap_map]
    exact List.filterMap_eq_nil_iff.mpr fun _ _ => rfl
  rw [openNodes, push, List.filterMap_append, pushed, hpending, List.nil_append, openNodes]

structure Fits (a : Agenda N) (cs : List (Phase × N)) : Prop where
  opens : Opens cs a.openNodes
  nodup : a.openNodes.Nodup
  mem_path : ∀ m, m ∈ a.path ↔ m ∈ a.openNodes
  visited : ∀ m, m ∈ a.openNodes → m ∈ a.visited
  first_iff : ∀ m, (.first, m) ∈ cs ↔ m ∈ a.visited
  last_iff : ∀ m, (.last, m) ∈ cs ↔ m ∈ a.visited ∧ m ∉ a.openNodes

theorem fits_start (n : N) : (start n).Fits [] := by
  have hopen : (start n).openNodes = [] := rfl
  constructor
  case opens => exact .nested .nil
  case nodup => exact .nil
  case mem_path => intro m; rw [hopen]; simp [start]
  case visited => intro m hm; rw [hopen] at hm; cases hm
  case first_iff => intro m; simp [start]
  case last_iff => intro m; simp [start]

theorem Fits.isOpen_iff [DecidableEq N] (h : a.Fits cs) (m : N) :
    isOpen cs m = true ↔ m ∈ a.openNodes := by
  have hvisited := h.visited m
  simp only [isOpen, Bool.and_eq_true, Bool.not_eq_true', ← Bool.not_eq_true,
    List.contains_iff_mem, h.first_iff, h.last_iff]
  constructor
  · rintro ⟨hm, hlast⟩
    exact Decidable.of_not_not fun hopen => hlast ⟨hm, hopen⟩
  · intro hm
    exact ⟨hvisited hm, fun hlast => hlast.2 hm⟩

theorem Fits.congr (h : a.Fits cs) (hopen : b.openNodes = a.openNodes)
    (hvisited : b.visited = a.visited) (hpath : b.path = a.path) : b.Fits cs := by
  obtain ⟨opens, nodup, mem_path, visited, first_iff, last_iff⟩ := h
  constructor <;> simpa only [hopen, hvisited, hpath]

theorem Fits.found_eq [DecidableEq N] {nav : Navigation σ N} {flags : Flags}
    {earlier : List (Event σ N ε)} {e : Event σ N ε} (h : a.Fits (brackets (earlier ++ [e])))
    (he : e.phase = .first) :
    found nav flags earlier e =
      if flags.goesOn e.answer then a.closed (nav.view e.after) flags e.node else [] := by
  have hopen : (fun m => a.visited.contains m && a.path.contains m) =
      isOpen (brackets (earlier ++ [e])) := by
    funext m
    rw [Bool.eq_iff_iff, h.isOpen_iff, Bool.and_eq_true, ← Std.ExtTreeSet.mem_iff_contains,
      ← Std.ExtTreeSet.mem_iff_contains, h.mem_path]
    exact ⟨And.right, fun hm => ⟨h.visited m hm, hm⟩⟩
  simp only [found, he, true_and, Agenda.closed, reverse_neighbours, hopen]

variable [Std.LawfulEqOrd N]

theorem Fits.enter (h : a.Fits cs) (hstack : a.stack = .pending n :: below) (hn : n ∉ a.visited) :
    (a.enter n below).Fits (cs ++ [(.first, n)]) := by
  have hopen := openNodes_enter hstack
  have hvisited : ∀ m, m ∈ (a.enter n below).visited ↔ m = n ∨ m ∈ a.visited := fun m =>
    mem_insert_iff
  have hpath : ∀ m, m ∈ (a.enter n below).path ↔ m = n ∨ m ∈ a.path := fun m => mem_insert_iff
  constructor
  case opens => rw [hopen]; exact h.opens.first n
  case nodup => rw [hopen]; exact List.nodup_cons.mpr ⟨mt (h.visited n) hn, h.nodup⟩
  case mem_path => intro m; rw [hpath, hopen, List.mem_cons, h.mem_path]
  case visited =>
    intro m hm
    rw [hopen] at hm
    exact (hvisited m).mpr ((List.mem_cons.mp hm).imp_right (h.visited m))
  case first_iff =>
    intro m
    rw [hvisited, List.mem_append, List.mem_singleton, h.first_iff, or_comm]
    simp
  case last_iff =>
    intro m
    rw [hvisited, hopen, List.mem_append, List.mem_singleton, h.last_iff, List.mem_cons]
    by_cases hm : m = n
    · simp [hm, hn]
    · simp [hm]

theorem Fits.leave (h : a.Fits cs) (hstack : a.stack = .entered n :: below) :
    (a.leave n below).Fits (cs ++ [(.last, n)]) := by
  have hopen := openNodes_leave hstack
  have hpath : ∀ m, m ∈ (a.leave n below).path ↔ m ≠ n ∧ m ∈ a.path := by
    intro m
    rw [Agenda.leave, Std.ExtTreeSet.mem_erase, Ne, Std.LawfulEqCmp.compare_eq_iff_eq, eq_comm]
  obtain ⟨opens, nodup, mem_path, visited, first_iff, last_iff⟩ := h
  rw [hopen] at opens nodup
  obtain ⟨hnew, hnodup⟩ := List.nodup_cons.mp nodup
  have hopen_iff : ∀ m, m ∈ (a.leave n below).openNodes ↔ m ≠ n ∧ m ∈ a.openNodes := by
    intro m
    rw [hopen, List.mem_cons]
    by_cases hm : m = n
    · simp [hm, hnew]
    · simp [hm]
  constructor
  case opens => exact opens.last
  case nodup => exact hnodup
  case mem_path => intro m; rw [hpath, hopen_iff, mem_path]
  case visited => intro m hm; exact visited m ((hopen_iff m).mp hm).2
  case first_iff =>
    intro m
    rw [List.mem_append, first_iff]
    simp [Agenda.leave]
  case last_iff =>
    intro m
    have hn : n ∈ a.visited := visited n (by rw [hopen]; exact List.mem_cons_self)
    rw [List.mem_append, List.mem_singleton, last_iff, hopen_iff]
    by_cases hm : m = n
    · simp [hm, hn, Agenda.leave]
    · simp [hm, Agenda.leave]

end Agenda

section Shape

variable [Ord N] [Std.TransOrd N] [DecidableEq N] {nav : Navigation σ N}
  {pre post : Visitor σ N ε} {flags : Flags} {c d : Course (Agenda N) σ N ε}

structure Shaped (nav : Navigation σ N) (flags : Flags) (c : Course (Agenda N) σ N ε) : Prop where
  fits : c.stopped = false → c.control.Fits (brackets c.events.toList)
  halts : c.Halts flags
  opens : ∃ path, Opens (brackets c.events.toList) path
  nodup : (brackets c.events.toList).Nodup
  innermost : Throughout ClosesInnermost c.events.toList
  begins : cyclesAt c.events.toList c.status = []
  grows : ∀ earlier e later, c.events.toList = earlier ++ e :: later →
    cyclesAt later c.status = e.status.cycles.toList ++ found nav flags earlier e

theorem Shaped.drop (h : Shaped nav flags c) {n : N} {below : List (Frame N)}
    (hstack : c.control.stack = .pending n :: below) (warnings : Array (Warning N)) :
    Shaped nav flags (c.drop (c.control.drop below warnings) []) := by
  obtain ⟨fits, halts, opens, nodup, innermost, begins, grows⟩ := h
  have hstatus : (c.drop (c.control.drop below warnings) []).status = c.status :=
    Status.addCycles_nil _
  constructor
  case fits =>
    intro hs
    exact (fits hs).congr (Agenda.openNodes_drop hstack warnings) rfl rfl
  case halts => exact halts
  case opens => exact opens
  case nodup => exact nodup
  case innermost => exact innermost
  case begins => rw [hstatus]; exact begins
  case grows => rw [hstatus]; exact grows

theorem Shaped.call (h : Shaped nav flags c) {visit : Phase → Visitor σ N ε} {phase : Phase} {n : N}
    {halt : Agenda N} {next : σ → Agenda N × List N}
    (hopens : ∃ path, Opens (brackets c.events.toList ++ [(phase, n)]) path)
    (hnew : (phase, n) ∉ brackets c.events.toList)
    (hinner : ClosesInnermost c.events.toList (c.event visit phase n))
    (hfits : ∀ world, (next world).1.Fits (brackets c.events.toList ++ [(phase, n)]))
    (hfound : found nav flags c.events.toList (c.event visit phase n) =
      if flags.goesOn (c.event visit phase n).answer then (next (c.event visit phase n).after).2
      else []) :
    Shaped nav flags (c.call visit id flags phase n halt next) := by
  obtain ⟨-, -, -, nodup, innermost, begins, grows⟩ := h
  have hbrackets : brackets (c.events.push (c.event visit phase n)).toList =
      brackets c.events.toList ++ [(phase, n)] := by
    simp [brackets, Event.bracket, Course.event]
  have hcycles : (c.call visit id flags phase n halt next).status.cycles.toList =
      c.status.cycles.toList ++ found nav flags c.events.toList (c.event visit phase n) := by
    rw [hfound]
    simp [Course.call, Status.addCycles]
  constructor
  case fits =>
    intro hs
    have hgo : flags.goesOn (c.event visit phase n).answer = true := by simpa using hs
    rw [Course.events_call, hbrackets, Course.control_call hgo]
    exact hfits _
  case halts => exact Course.halts_call
  case opens => rw [Course.events_call, hbrackets]; exact hopens
  case nodup =>
    rw [Course.events_call, hbrackets, ← List.concat_eq_append]
    exact .concat hnew nodup
  case innermost =>
    rw [Course.events_call, Array.toList_push]
    exact throughout_append_singleton.mpr ⟨innermost, hinner⟩
  case begins =>
    rw [Course.events_call, Array.toList_push, cyclesAt_append_singleton]
    exact begins
  case grows =>
    intro earlier e later hsplit
    rw [Course.events_call, Array.toList_push] at hsplit
    obtain ⟨rfl, rfl, rfl⟩ | ⟨rest, rfl, hrest⟩ := append_singleton_eq_iff.mp hsplit
    · exact hcycles
    · rw [cyclesAt_append_singleton]
      exact grows earlier e rest hrest

theorem Shaped.step [Std.LawfulEqOrd N] (h : Shaped nav flags c)
    (hstep : c.step (plan nav flags) (visitors pre post) id flags = some d) :
    Shaped nav flags d := by
  obtain ⟨hs, hmove⟩ := Course.step_eq_some hstep
  have hfits := h.fits hs
  obtain ⟨next, cycles, hplan, rfl⟩ | ⟨phase, n, halt, next, hplan, rfl⟩ := hmove
  · obtain ⟨n, below, hstack, rfl, ⟨-, rfl⟩ | ⟨-, -, rfl⟩⟩ := plan_eq_drop hplan
    all_goals exact h.drop hstack _
  · cases phase with
    | last =>
      obtain ⟨below, hstack, rfl, rfl⟩ := plan_eq_last hplan
      have hleave := hfits.leave hstack
      have hopens := hfits.opens
      rw [Agenda.openNodes_leave hstack] at hopens
      refine h.call ⟨_, hleave.opens⟩ ?_ (fun _ => hopens.exists_inner) (fun _ => hleave) ?_
      · intro hlast
        rw [hfits.last_iff, Agenda.openNodes_leave hstack] at hlast
        exact hlast.2 List.mem_cons_self
      · rw [ite_self]
        exact if_neg fun hfound => Phase.noConfusion hfound.1
    | first =>
      obtain ⟨below, hstack, hn, -, rfl, rfl⟩ := plan_eq_first hplan
      have henter := hfits.enter hstack hn
      refine h.call ⟨_, henter.opens⟩ (mt (hfits.first_iff _).mp hn) ?_
        (fun world => henter.congr (Agenda.openNodes_push _ flags _) rfl rfl) ?_
      · intro hlast
        cases hlast
      · refine Agenda.Fits.found_eq (a := c.control.enter n below) ?_ rfl
        rwa [brackets, List.map_append]

theorem shaped_start (n : N) (world : σ) :
    Shaped nav flags (Course.start (.start n) world : Course (Agenda N) σ N ε) := by
  have hnone : brackets (Course.start (Agenda.start n) world :
      Course (Agenda N) σ N ε).events.toList = [] := rfl
  constructor
  case fits => intro _; rw [hnone]; exact Agenda.fits_start n
  case halts => intro hs; cases hs
  case opens => rw [hnone]; exact ⟨[], .nested .nil⟩
  case nodup => rw [hnone]; exact .nil
  case innermost => exact throughout_nil
  case begins => rfl
  case grows =>
    intro earlier e later hsplit
    simp [Course.start] at hsplit

variable (nav pre post flags) in
theorem shaped_course [Std.LawfulEqOrd N] (limit : Nat) (world : σ) (n : N) :
    Shaped nav flags (course nav pre post id flags limit world n) :=
  iterate_invariant (fun _ _ => Shaped.step) (shaped_start n world) limit

theorem Shaped.nested (h : Shaped nav flags c) (hfinished : c.finished (plan nav flags) = true)
    (hgoes : ∀ e ∈ c.events.toList, flags.goesOn e.answer = true) :
    Nested (brackets c.events.toList) := by
  obtain ⟨hs, hplan⟩ := h.halts.idle hfinished hgoes
  have hopens := (h.fits hs).opens.close
  rw [Agenda.openNodes, plan_eq_none hplan, List.filterMap_nil, List.map_nil,
    List.append_nil] at hopens
  exact hopens

end Shape

end DepthFirst

section Statement

variable [Ord N] [Std.TransOrd N] [DecidableEq N]

/-- What holds of the calls of a depth-first walk that makes a report with a record of them, and of
the cycles that it finds. -/
structure Nests (nav : Navigation σ N) (flags : Flags)
    (r : Report (σ × Array (Event σ N ε)) N ε) : Prop where
  /-- The calls are the beginning of calls that nest. -/
  opening : ∃ rest, Nested (brackets r.world.2.toList ++ rest)
  nodup : (brackets r.world.2.toList).Nodup
  innermost : Throughout ClosesInnermost r.world.2.toList
  /-- A walk that no call has ended closes all that it opens. -/
  balanced : r.finished = true → (∀ e ∈ r.world.2.toList, flags.goesOn e.answer = true) →
    Nested (brackets r.world.2.toList)
  begins : cyclesAt r.world.2.toList r.status = []
  /-- From one call to the next, cycles are found at the open neighbours, if the call was the first
  of its node and the walk went on, and nowhere else. -/
  grows : ∀ earlier e later, r.world.2.toList = earlier ++ e :: later →
    cyclesAt later r.status = e.status.cycles.toList ++ found nav flags earlier e

open DepthFirst in
/-- The calls of a depth-first walk nest, whatever its visitors do, and after the first call of a
node it finds cycles exactly at the neighbours that are open. The record of the calls changes
nothing about the walk. -/
theorem depthFirst_nests [Std.LawfulEqOrd N] (nav : Navigation σ N) (pre post : Visitor σ N ε)
    (flags : Flags) (limit : Nat) (world : σ) (n : N) :
    let r := depthFirst (nav.comap Prod.fst) (pre.recorded .first) (post.recorded .last) flags
      limit (world, #[]) n
    Nests nav flags r ∧ r.mapWorld Prod.fst = depthFirst nav pre post flags limit world n := by
  intro r
  have hshaped := shaped_course nav pre post flags limit world n
  have hr : r = (course nav pre post id flags limit world n).report (plan nav flags)
      Agenda.warnings := depthFirst_recorded nav pre post id flags limit world n
  refine ⟨?_, depthFirst_recorded_mapWorld nav pre post id flags limit world n⟩
  rw [hr]
  obtain ⟨path, hopens⟩ := hshaped.opens
  constructor
  case opening => exact ⟨_, hopens.close⟩
  case nodup => exact hshaped.nodup
  case innermost => exact hshaped.innermost
  case balanced => exact hshaped.nested
  case begins => exact hshaped.begins
  case grows => exact hshaped.grows

/-- Each visitor takes the node that it visits out of the world, and the last visits fail. -/
theorem depthFirst_nests_table :
    let t : AdjacencyTable := ⟨#[[some 1, some 2], [some 0, some 2], [some 1]], #[], 0, []⟩
    let pre : Visitor AdjacencyTable Nat Unit := fun t n _ => (.proceed, t.drop n)
    let post : Visitor AdjacencyTable Nat Unit := fun t n _ => (.fail (), t.drop n)
    let r := depthFirst (AdjacencyTable.navigation.comap Prod.fst) (pre.recorded .first)
      (post.recorded .last) {} 20 (t, #[]) 0
    Nests AdjacencyTable.navigation {} r ∧
      brackets r.world.2.toList =
        [(.first, 0), (.first, 1), (.first, 2), (.last, 2), (.last, 1), (.last, 0)] ∧
      r.status.cycles = #[0, 1] ∧ r.finished = true := by
  intro t pre post r
  obtain ⟨hnests, -⟩ := depthFirst_nests AdjacencyTable.navigation pre post {} 20 t 0
  exact ⟨hnests, by decide +kernel, by decide +kernel, by decide +kernel⟩

end Statement

end Multidigraph.Walk
