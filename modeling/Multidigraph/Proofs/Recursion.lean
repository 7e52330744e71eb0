import Mathlib.Algebra.GroupWithZero.Nat
import Multidigraph.Walk.DepthFirst

namespace Multidigraph.Walk

variable {σ N ε : Type}

structure View (N : Type) where
  contains : N → Bool
  outgoing : N → List (Option N)
  incoming : N → List (Option N)

def Navigation.view (nav : Navigation σ N) (world : σ) : View N :=
  ⟨nav.contains world, nav.outgoing world, nav.incoming world⟩

def Visitor.Keeps (visit : Visitor σ N ε) (nav : Navigation σ N) (v : View N) : Prop :=
  ∀ world n status, nav.view world = v → nav.view (visit world n status).2 = v

namespace View

variable (v : View N) (flags : Flags) (n : N)

/-- The nodes to which a walk goes on from a node, in the order in which it takes them up. -/
def neighbours : List N :=
  if flags.directed then (v.outgoing n).filterMap id
  else (v.incoming n).filterMap id ++ (v.outgoing n).filterMap id

def warning? (side : Side) : Option N × Nat → Option (Warning N)
  | (none, position) => some (.drift side n position)
  | (some _, _) => none

def drifts : List (Warning N) :=
  if flags.directed then (v.outgoing n).zipIdx.reverse.filterMap (warning? n .outgoing)
  else (v.outgoing n).zipIdx.reverse.filterMap (warning? n .outgoing) ++
    (v.incoming n).zipIdx.reverse.filterMap (warning? n .incoming)

variable {v flags n}

theorem filterMap_warning? (side : Side) (positions : List (Option N)) :
    positions.zipIdx.reverse.filterMap (warning? n side) =
      (Walk.drifts side n positions).reverse := by
  rw [List.filterMap_reverse, Walk.drifts]
  congr 2
  funext ⟨m?, i⟩
  cases m? <;> rfl

theorem neighbours_eq :
    v.neighbours flags n =
      if flags.directed then resolved (v.outgoing n)
      else resolved (v.incoming n) ++ resolved (v.outgoing n) := rfl

theorem drifts_eq :
    v.drifts flags n =
      if flags.directed then (Walk.drifts .outgoing n (v.outgoing n)).reverse
      else (Walk.drifts .outgoing n (v.outgoing n)).reverse ++
        (Walk.drifts .incoming n (v.incoming n)).reverse := by
  rw [drifts, filterMap_warning?, filterMap_warning?]

end View

namespace DepthFirst

variable [Ord N] [Std.TransOrd N]

structure Progress (σ N ε : Type) [Ord N] where
  world : σ
  visited : Std.ExtTreeSet N
  status : Status N ε
  warnings : Array (Warning N)
  stopped : Bool

namespace Progress

def start (world : σ) : Progress σ N ε := ⟨world, ∅, {}, #[], false⟩

def report (p : Progress σ N ε) : Report σ N ε := ⟨p.world, p.status, p.warnings, true⟩

/-- A visit. A failure is recorded, and ends the walk as a stop does if the walk is not to continue
on errors. -/
def call (visit : Visitor σ N ε) (flags : Flags) (n : N) (p : Progress σ N ε) : Progress σ N ε :=
  let (answer, world) := visit p.world n p.status
  { p with
    world := world
    status := match answer with
      | .proceed | .stop => p.status
      | .fail e => { p.status with failures := p.status.failures.push ⟨n, e⟩ }
    stopped := match answer with
      | .proceed => false
      | .stop => true
      | .fail _ => !flags.continueOnError }

def mark (n : N) (p : Progress σ N ε) : Progress σ N ε := { p with visited := p.visited.insert n }

/-- Finds a cycle at each neighbour of `n` that is visited and on the path, from the last outgoing
position to the first, and then from the last incoming one to the first. -/
def look (v : View N) (flags : Flags) (path : Std.ExtTreeSet N) (n : N) (p : Progress σ N ε) :
    Progress σ N ε :=
  { p with
    status := { p.status with
      cycles := p.status.cycles ++ (v.neighbours flags n).reverse.filter fun m =>
        p.visited.contains m && path.contains m }
    warnings := p.warnings ++ v.drifts flags n }

def enter (v : View N) (pre : Visitor σ N ε) (flags : Flags) (path : Std.ExtTreeSet N) (n : N)
    (p : Progress σ N ε) : Progress σ N ε :=
  let p := (p.call pre flags n).mark n
  if p.stopped then p else p.look v flags path n

/-- The last visit of `n`, unless the walk has stopped below it. -/
def leave (post : Visitor σ N ε) (flags : Flags) (n : N) (p : Progress σ N ε) : Progress σ N ε :=
  if p.stopped then p else p.call post flags n

def miss (n : N) (p : Progress σ N ε) : Progress σ N ε :=
  { p with warnings := p.warnings.push (.left n) }

end Progress

section Visit

variable (v : View N) (pre post : Visitor σ N ε) (flags : Flags)

/-- Visits a node, and then with `visit` the nodes that it leads to. The nodes whose visits are
under way are the path; a walk that has stopped does nothing more. -/
def visitWith
    (visit : Std.ExtTreeSet N → N → Progress σ N ε → Option (Progress σ N ε))
    (path : Std.ExtTreeSet N) (n : N) (p : Progress σ N ε) : Option (Progress σ N ε) :=
  if p.stopped || p.visited.contains n then some p
  else if !v.contains n then some (p.miss n)
  else do
    let below (p : Progress σ N ε) (m : N) := visit (path.insert n) m p
    let q ← (v.neighbours flags n).foldlM below (p.enter v pre flags (path.insert n) n)
    some (q.leave post flags n)

def visitWithin : Nat → Std.ExtTreeSet N → N → Progress σ N ε → Option (Progress σ N ε)
  | 0 => fun _ _ _ => none
  | depth + 1 => visitWith v pre post flags (visitWithin depth)

open Classical in
/-- Visits a node and then all that can be reached from it: what the recursion comes to, if it comes
to an end. -/
noncomputable def visit (path : Std.ExtTreeSet N) (n : N) (p : Progress σ N ε) :
    Option (Progress σ N ε) :=
  if h : ∃ q depth, visitWithin v pre post flags depth path n p = some q then some h.choose
  else none

variable {v pre post flags} {path : Std.ExtTreeSet N} {n : N} {p q : Progress σ N ε}

theorem foldlM_mono {α β : Type} {f g : β → α → Option β}
    (h : ∀ b a c, f b a = some c → g b a = some c) (xs : List α) {b c : β}
    (hf : xs.foldlM f b = some c) : xs.foldlM g b = some c := by
  induction xs generalizing b with
  | nil => exact hf
  | cons x xs ih =>
    rw [List.foldlM_cons] at hf ⊢
    obtain ⟨a, ha, hrest⟩ := Option.bind_eq_some_iff.mp hf
    exact Option.bind_eq_some_iff.mpr ⟨a, h b x a ha, ih hrest⟩

theorem visitWith_mono
    {f g : Std.ExtTreeSet N → N → Progress σ N ε → Option (Progress σ N ε)}
    (h : ∀ path n p q, f path n p = some q → g path n p = some q)
    (hf : visitWith v pre post flags f path n p = some q) :
    visitWith v pre post flags g path n p = some q := by
  unfold visitWith at hf ⊢
  split
  · next hdone => rwa [if_pos hdone] at hf
  · next hdone =>
    rw [if_neg hdone] at hf
    split
    · next habsent => rwa [if_pos habsent] at hf
    · next hthere =>
      rw [if_neg hthere] at hf
      obtain ⟨r, hr, hq⟩ := Option.bind_eq_some_iff.mp hf
      exact Option.bind_eq_some_iff.mpr
        ⟨r, foldlM_mono (fun p m q => h (path.insert n) m p q) _ hr, hq⟩

theorem visitWithin_mono {depth depth' : Nat} (h : depth ≤ depth')
    (hq : visitWithin v pre post flags depth path n p = some q) :
    visitWithin v pre post flags depth' path n p = some q := by
  induction depth generalizing depth' path n p q with
  | zero => cases hq
  | succ depth ih =>
    cases depth' with
    | zero => omega
    | succ depth' => exact visitWith_mono (fun _ _ _ _ => ih (by omega)) hq

theorem visit_eq_some_iff :
    visit v pre post flags path n p = some q ↔
      ∃ depth, visitWithin v pre post flags depth path n p = some q := by
  unfold visit
  split
  · next h =>
    obtain ⟨depth, hdepth⟩ := h.choose_spec
    rw [Option.some_inj]
    constructor
    · rintro rfl
      exact ⟨depth, hdepth⟩
    · rintro ⟨depth', hq⟩
      have hq' := visitWithin_mono (Nat.le_max_left depth' depth) hq
      rw [visitWithin_mono (Nat.le_max_right depth' depth) hdepth] at hq'
      exact Option.some.inj hq'
  · next h =>
    constructor
    · intro hq
      cases hq
    · rintro ⟨depth, hq⟩
      exact absurd ⟨q, depth, hq⟩ h

theorem exists_foldlM_visitWithin (ns : List N)
    (h : ns.foldlM (fun p m => visit v pre post flags path m p) p = some q) :
    ∃ depth, ns.foldlM (fun p m => visitWithin v pre post flags depth path m p) p = some q := by
  induction ns generalizing p with
  | nil => exact ⟨0, h⟩
  | cons n ns ih =>
    rw [List.foldlM_cons] at h
    obtain ⟨r, hr, hrest⟩ := Option.bind_eq_some_iff.mp h
    obtain ⟨depth, hdepth⟩ := visit_eq_some_iff.mp hr
    obtain ⟨depth', hdepth'⟩ := ih hrest
    refine ⟨max depth depth', ?_⟩
    rw [List.foldlM_cons]
    exact Option.bind_eq_some_iff.mpr ⟨r, visitWithin_mono (Nat.le_max_left depth depth') hdepth,
      foldlM_mono (fun _ _ _ => visitWithin_mono (Nat.le_max_right depth depth')) ns hdepth'⟩

theorem visit_eq_visitWith :
    visit v pre post flags path n p =
      visitWith v pre post flags (visit v pre post flags) path n p := by
  ext q
  rw [visit_eq_some_iff]
  constructor
  · rintro ⟨depth, hq⟩
    cases depth with
    | zero => cases hq
    | succ depth =>
      exact visitWith_mono (fun _ _ _ _ hr => visit_eq_some_iff.mpr ⟨depth, hr⟩) hq
  · intro hq
    unfold visitWith at hq
    split at hq
    · next hdone => exact ⟨1, by simpa [visitWithin, visitWith, hdone] using hq⟩
    · next hdone =>
      split at hq
      · next habsent => exact ⟨1, by simpa [visitWithin, visitWith, hdone, habsent] using hq⟩
      · next hthere =>
        obtain ⟨r, hr, hleave⟩ := Option.bind_eq_some_iff.mp hq
        obtain ⟨depth, hdepth⟩ := exists_foldlM_visitWithin _ hr
        refine ⟨depth + 1, ?_⟩
        rw [visitWithin, visitWith, if_neg hdone, if_neg hthere]
        exact Option.bind_eq_some_iff.mpr ⟨r, hdepth, hleave⟩

end Visit

/-- The derivations of the recursion, for a list of nodes to visit in turn. The second list holds
the nodes that are left on the way, in order. -/
inductive Explores (v : View N) (pre post : Visitor σ N ε) (flags : Flags) :
    Std.ExtTreeSet N → Progress σ N ε → List N → List N → Progress σ N ε → Prop
  | halt {path p ns} (hs : p.stopped = true) : Explores v pre post flags path p ns [] p
  | nil {path p} : Explores v pre post flags path p [] [] p
  | seen {path p n ns left r} (hp : p.stopped = false) (hn : n ∈ p.visited)
      (hrest : Explores v pre post flags path p ns left r) :
      Explores v pre post flags path p (n :: ns) left r
  | absent {path p n ns left r} (hp : p.stopped = false) (hn : n ∉ p.visited)
      (hv : v.contains n = false) (hrest : Explores v pre post flags path (p.miss n) ns left r) :
      Explores v pre post flags path p (n :: ns) left r
  | cut {path p n ns left q} (hp : p.stopped = false) (hn : n ∉ p.visited)
      (hv : v.contains n = true)
      (hbelow : Explores v pre post flags (path.insert n) (p.enter v pre flags (path.insert n) n)
        (v.neighbours flags n) left q)
      (hq : q.stopped = true) : Explores v pre post flags path p (n :: ns) left q
  | visit {path p n ns left left' q r} (hp : p.stopped = false) (hn : n ∉ p.visited)
      (hv : v.contains n = true)
      (hbelow : Explores v pre post flags (path.insert n) (p.enter v pre flags (path.insert n) n)
        (v.neighbours flags n) left q)
      (hq : q.stopped = false)
      (hrest : Explores v pre post flags path (q.call post flags n) ns left' r) :
      Explores v pre post flags path p (n :: ns) (left ++ n :: left') r

namespace Progress

variable (visit : Visitor σ N ε) (v : View N) (flags : Flags) (path : Std.ExtTreeSet N) (n : N)
  (p : Progress σ N ε)

omit [Std.TransOrd N] in
theorem call_eq :
    p.call visit flags n =
      ⟨(visit p.world n p.status).2, p.visited, p.status.note n (visit p.world n p.status).1,
        p.warnings, !flags.goesOn (visit p.world n p.status).1⟩ := by
  obtain ⟨world, visited, status, warnings, stopped⟩ := p
  simp only [call]
  cases (visit world n status).1 <;> rfl

theorem look_eq :
    p.look v flags path n =
      { p with
        status := p.status.addCycles <| (v.neighbours flags n).reverse.filter fun m =>
          p.visited.contains m && path.contains m
        warnings := p.warnings.appendList (v.drifts flags n) } := rfl

omit [Std.TransOrd N] in
@[simp] theorem visited_call : (p.call visit flags n).visited = p.visited := rfl

omit [Std.TransOrd N] in
@[simp] theorem visited_miss : (p.miss n).visited = p.visited := rfl

omit [Std.TransOrd N] in
theorem world_call : (p.call visit flags n).world = (visit p.world n p.status).2 := rfl

@[simp] theorem world_enter :
    (p.enter v visit flags path n).world = (p.call visit flags n).world := by
  unfold enter
  dsimp only
  split <;> rfl

@[simp] theorem visited_enter : (p.enter v visit flags path n).visited = p.visited.insert n := by
  unfold enter
  dsimp only
  split <;> rfl

@[simp] theorem stopped_enter :
    (p.enter v visit flags path n).stopped = (p.call visit flags n).stopped := by
  unfold enter
  dsimp only
  split <;> rfl

variable {p path} in
theorem mem_visited_enter (hpath : ∀ m, m ∈ path → m ∈ p.visited) (path' : Std.ExtTreeSet N)
    (m : N) (hm : m ∈ path.insert n) : m ∈ (p.enter v visit flags path' n).visited := by
  rw [Std.ExtTreeSet.mem_insert] at hm
  rw [visited_enter, Std.ExtTreeSet.mem_insert]
  exact hm.imp_right (hpath m)

end Progress

namespace Explores

variable {v : View N} {pre post : Visitor σ N ε} {flags : Flags} {path : Std.ExtTreeSet N}
  {p q : Progress σ N ε} {ns left : List N}

theorem eq_of_stopped (h : Explores v pre post flags path p ns left q) (hp : p.stopped = true) :
    left = [] ∧ q = p := by
  induction h with
  | halt | nil => exact ⟨rfl, rfl⟩
  | seen hp' | absent hp' | cut hp' | visit hp' => simp [hp] at hp'

theorem stopped_eq_false (h : Explores v pre post flags path p ns left q)
    (hq : q.stopped = false) : p.stopped = false := by
  cases hp : p.stopped with
  | false => rfl
  | true =>
    obtain ⟨-, rfl⟩ := h.eq_of_stopped hp
    rw [hp] at hq
    cases hq

theorem visited_mono (h : Explores v pre post flags path p ns left q) {m : N}
    (hm : m ∈ p.visited) : m ∈ q.visited := by
  induction h with
  | halt | nil => exact hm
  | seen _ _ _ ih | absent _ _ _ _ ih => exact ih hm
  | cut _ _ _ _ _ ih => exact ih (by simp [hm])
  | visit _ _ _ _ _ _ ihbelow ihrest => exact ihrest (by simpa using ihbelow (by simp [hm]))

theorem foldlM_visit (h : Explores v pre post flags path p ns left q) :
    ns.foldlM (fun p n => DepthFirst.visit v pre post flags path n p) p = some q := by
  have hhalt : ∀ (path : Std.ExtTreeSet N) (p : Progress σ N ε), p.stopped = true → ∀ ns : List N,
      ns.foldlM (fun p n => DepthFirst.visit v pre post flags path n p) p = some p := by
    intro path p hp ns
    induction ns with
    | nil => rfl
    | cons n ns ih => rw [List.foldlM_cons, visit_eq_visitWith, visitWith]; simpa [hp] using ih
  induction h with
  | halt hs => exact hhalt _ _ hs _
  | nil => rfl
  | seen _ hn _ ih =>
    rw [List.foldlM_cons, visit_eq_visitWith, visitWith]
    simpa [Std.ExtTreeSet.mem_iff_contains.mp hn] using ih
  | absent hp hn hv _ ih =>
    rw [List.foldlM_cons, visit_eq_visitWith, visitWith]
    simpa [hp, hn, hv] using ih
  | cut hp hn hv _ hq ih =>
    rw [List.foldlM_cons, visit_eq_visitWith, visitWith]
    simpa [hp, hn, hv, ih, Progress.leave, hq] using hhalt _ _ hq _
  | visit hp hn hv _ hq _ ihbelow ihrest =>
    rw [List.foldlM_cons, visit_eq_visitWith, visitWith]
    simpa [hp, hn, hv, ihbelow, Progress.leave, hq] using ihrest

theorem visit_eq {n : N} (h : Explores v pre post flags path p [n] left q) :
    DepthFirst.visit v pre post flags path n p = some q := by
  simpa using h.foldlM_visit

end Explores

section Termination

/-- What is owed for the nodes that are not in a set, when each node costs `f`. -/
def owed (f : N → Nat) (nodes : List N) (s : Std.ExtTreeSet N) : Nat :=
  (nodes.map fun m => if m ∈ s then 0 else f m).sum

variable (f : N → Nat) {nodes : List N} {s t : Std.ExtTreeSet N}

theorem owed_nil (s : Std.ExtTreeSet N) : owed f [] s = 0 := rfl

theorem owed_cons (m : N) (nodes : List N) (s : Std.ExtTreeSet N) :
    owed f (m :: nodes) s = (if m ∈ s then 0 else f m) + owed f nodes s := by
  simp [owed]

theorem owed_empty (nodes : List N) : owed f nodes ∅ = (nodes.map f).sum := by
  simp [owed]

theorem owed_mono (hst : ∀ m, m ∈ s → m ∈ t) (nodes : List N) :
    owed f nodes t ≤ owed f nodes s := by
  induction nodes with
  | nil => exact Nat.le_refl _
  | cons m nodes ih =>
    rw [owed_cons, owed_cons]
    by_cases hm : m ∈ s
    · simpa [hm, hst m hm] using ih
    · rw [if_neg hm]
      split <;> omega

theorem owed_insert {n : N} (hn : n ∈ nodes) (hs : n ∉ s) :
    owed f nodes (s.insert n) + f n ≤ owed f nodes s := by
  have hmono := owed_mono f (s := s) (t := s.insert n) fun m hm => by simp [hm]
  induction nodes with
  | nil => simp at hn
  | cons m nodes ih =>
    obtain rfl | hn := List.mem_cons.mp hn
    · have htail := hmono nodes
      simp only [owed_cons, Std.ExtTreeSet.mem_insert_self, hs, if_true, if_false]
      omega
    · have htail := ih hn
      have hhead := hmono [m]
      simp only [owed_cons, owed_nil] at hhead htail ⊢
      omega

theorem exists_explores {v : View N} (hnodes : ∀ m, v.contains m = true → m ∈ nodes)
    (pre post : Visitor σ N ε) (flags : Flags) (path : Std.ExtTreeSet N) (p : Progress σ N ε)
    (ns : List N) : ∃ left q, Explores v pre post flags path p ns left q := by
  -- each level of the recursion has fewer nodes left to visit than the one above it
  have hlevel : ∀ k path (p : Progress σ N ε) ns, owed (fun _ => 1) nodes p.visited < k →
      ∃ left q, Explores v pre post flags path p ns left q := by
    intro k
    induction k with
    | zero => intro path p ns h; omega
    | succ k ihk =>
      intro path p ns h
      induction ns generalizing p with
      | nil => exact ⟨[], p, .nil⟩
      | cons n ns ih =>
        by_cases hp : p.stopped = true
        · exact ⟨[], p, .halt hp⟩
        rw [Bool.not_eq_true] at hp
        by_cases hn : n ∈ p.visited
        · obtain ⟨left, r, hrest⟩ := ih p h
          exact ⟨left, r, .seen hp hn hrest⟩
        by_cases hv : v.contains n = true
        · have hfewer := owed_insert (fun _ => 1) (hnodes n hv) hn
          obtain ⟨left, q, hbelow⟩ := ihk (path.insert n) (p.enter v pre flags (path.insert n) n)
            (v.neighbours flags n) (by rw [Progress.visited_enter]; omega)
          by_cases hq : q.stopped = true
          · exact ⟨left, q, .cut hp hn hv hbelow hq⟩
          · have hmore : owed (fun _ => 1) nodes q.visited ≤ owed (fun _ => 1) nodes p.visited :=
              owed_mono _ (fun m hm => hbelow.visited_mono (by simp [hm])) nodes
            obtain ⟨left', r, hrest⟩ := ih (q.call post flags n)
              (by rw [Progress.visited_call]; exact Nat.lt_of_le_of_lt hmore h)
            exact ⟨left ++ n :: left', r, .visit hp hn hv hbelow (by simpa using hq) hrest⟩
        · rw [Bool.not_eq_true] at hv
          obtain ⟨left, r, hrest⟩ := ih (p.miss n) h
          exact ⟨left, r, .absent hp hn hv hrest⟩
  exact hlevel _ path p ns (Nat.lt_succ_self _)

end Termination

end DepthFirst

end Multidigraph.Walk
