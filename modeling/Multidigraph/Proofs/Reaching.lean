import Mathlib.Logic.Relation
import Multidigraph.Proofs.Recursion
import Multidigraph.Walk.Search

open Relation

namespace Multidigraph.Walk

variable {σ N ε : Type}

/-- Whether a walk that visits `a` takes up `b` there. -/
def View.Leads (v : View N) (flags : Flags) (a b : N) : Prop :=
  v.contains a = true ∧ b ∈ v.neighbours flags a

def Visitor.StopsAtCycles (visit : Visitor σ N ε) (flags : Flags) : Prop :=
  ∀ world n status, flags.goesOn (visit world n status).1 = false → status.hasCycles = true

theorem pass_stopsAtCycles (flags : Flags) : (pass : Visitor σ N ε).StopsAtCycles flags := by
  intro world n status h
  cases h

theorem collect_stopsAtCycles (flags : Flags) :
    (collect : Visitor (σ × Array N) N Empty).StopsAtCycles flags := by
  intro world n status h
  cases h

theorem untilCycle_stopsAtCycles (flags : Flags) :
    (untilCycle : Visitor σ N Empty).StopsAtCycles flags := by
  intro world n status h
  cases hc : status.hasCycles with
  | true => rfl
  | false => simp [untilCycle, hc, Flags.goesOn] at h

namespace Status

@[simp] theorem cycles_note (s : Status N ε) (n : N) (a : Answer ε) :
    (s.note n a).cycles = s.cycles := by
  cases a <;> rfl

@[simp] theorem mem_cycles_addCycles (s : Status N ε) (ns : List N) (m : N) :
    m ∈ (s.addCycles ns).cycles ↔ m ∈ s.cycles ∨ m ∈ ns := by
  rw [← Array.mem_toList_iff, ← Array.mem_toList_iff]
  simp [addCycles]

theorem hasCycles_iff (s : Status N ε) : s.hasCycles = true ↔ ∃ m, m ∈ s.cycles := by
  obtain ⟨failures, ⟨cycles⟩⟩ := s
  cases cycles <;> simp [hasCycles]

end Status

namespace DepthFirst

variable [Ord N] [Std.TransOrd N] [Std.LawfulEqOrd N] {v : View N} {pre post : Visitor σ N ε}
  {flags : Flags} {path : Std.ExtTreeSet N} {p q : Progress σ N ε} {n : N} {ns left : List N}

theorem mem_insert_iff {s : Std.ExtTreeSet N} {m : N} : m ∈ s.insert n ↔ m = n ∨ m ∈ s := by
  rw [Std.ExtTreeSet.mem_insert, Std.LawfulEqCmp.compare_eq_iff_eq, eq_comm]

omit [Std.TransOrd N] [Std.LawfulEqOrd N] in
@[simp] theorem Progress.cycles_call (visit : Visitor σ N ε) (p : Progress σ N ε) :
    (p.call visit flags n).status.cycles = p.status.cycles := by
  rw [call_eq, Status.cycles_note]

omit [Std.LawfulEqOrd N] in
theorem Progress.cycles_enter (v : View N) (path : Std.ExtTreeSet N) (n : N)
    (p : Progress σ N ε) :
    (p.enter v pre flags path n).status.cycles.toList = p.status.cycles.toList ++
      if (p.call pre flags n).stopped then []
      else (v.neighbours flags n).reverse.filter fun m =>
        (p.visited.insert n).contains m && path.contains m := by
  have hmark : ((p.call pre flags n).mark n).stopped = (p.call pre flags n).stopped := rfl
  have hcycles : ((p.call pre flags n).mark n).status.cycles = p.status.cycles := by
    change (p.call pre flags n).status.cycles = _
    rw [cycles_call]
  simp only [enter, hmark]
  split
  · rw [hcycles, List.append_nil]
  · simp [look, mark]

theorem Progress.mem_cycles_enter {m : N} :
    m ∈ (p.enter v pre flags path n).status.cycles ↔
      m ∈ p.status.cycles ∨ (p.call pre flags n).stopped = false ∧ m ∈ v.neighbours flags n ∧
        (m = n ∨ m ∈ p.visited) ∧ m ∈ path := by
  rw [← Array.mem_toList_iff, cycles_enter, List.mem_append, Array.mem_toList_iff]
  cases (p.call pre flags n).stopped with
  | true => simp
  | false =>
    simp only [Bool.false_eq_true, if_false, List.mem_filter, List.mem_reverse, Bool.and_eq_true,
      ← Std.ExtTreeSet.mem_iff_contains, mem_insert_iff, true_and]

namespace Explores

theorem cycles_mono (h : Explores v pre post flags path p ns left q) {c : N}
    (hc : c ∈ p.status.cycles) : c ∈ q.status.cycles := by
  induction h with
  | halt | nil => exact hc
  | seen _ _ _ ih | absent _ _ _ _ ih => exact ih hc
  | cut _ _ _ _ _ ih => exact ih (Progress.mem_cycles_enter.mpr (.inl hc))
  | visit _ _ _ _ _ _ ihbelow ihrest =>
    refine ihrest ?_
    rw [Progress.cycles_call]
    exact ihbelow (Progress.mem_cycles_enter.mpr (.inl hc))

theorem stopped_of_no_cycles (h : Explores v pre post flags path p ns left q)
    (hpre : pre.StopsAtCycles flags) (hpost : post.StopsAtCycles flags)
    (hp : p.stopped = false) (hq : q.status.hasCycles = false) : q.stopped = false := by
  have hno : ∀ c, c ∉ q.status.cycles := by
    intro c hc
    rw [q.status.hasCycles_iff.mpr ⟨c, hc⟩] at hq
    cases hq
  have hcall : ∀ {visit : Visitor σ N ε} {p : Progress σ N ε} {n : N},
      visit.StopsAtCycles flags → (∀ c, c ∉ p.status.cycles) →
        (p.call visit flags n).stopped = false := by
    intro visit p n hvisit hno
    cases hs : (p.call visit flags n).stopped with
    | false => rfl
    | true =>
      obtain ⟨c, hc⟩ := p.status.hasCycles_iff.mp
        (hvisit p.world n p.status (by simpa [Progress.call_eq] using hs))
      exact absurd hc (hno c)
  clear hq
  induction h with
  | halt | nil => exact hp
  | seen _ _ _ ih | absent _ _ _ _ ih => exact ih hp hno
  | cut _ _ _ hbelow _ ih =>
    refine ih ?_ hno
    rw [Progress.stopped_enter]
    apply hcall hpre
    intro c hc
    exact hno c (hbelow.cycles_mono (Progress.mem_cycles_enter.mpr (.inl hc)))
  | visit _ _ _ _ _ hrest _ ihrest =>
    refine ihrest (hcall hpost ?_) hno
    intro c hc
    apply hno c
    apply hrest.cycles_mono
    rwa [Progress.cycles_call]

omit [Std.LawfulEqOrd N] in
theorem hasCycles_of_absent {world : σ} (h : Explores v pre post flags ∅ (.start world) [n] left q)
    (hn : v.contains n = false) : q.status.hasCycles = false := by
  cases h with
  | halt => rfl
  | seen _ hvisited => simp [Progress.start] at hvisited
  | absent _ _ _ hrest => cases hrest <;> rfl
  | cut _ _ hv | visit _ _ hv => rw [hn] at hv; cases hv

theorem reached (h : Explores v pre post flags path p ns left q) {m : N} (hm : m ∈ q.visited) :
    m ∈ p.visited ∨ v.contains m = true ∧ ∃ n ∈ ns, ReflTransGen (v.Leads flags) n m := by
  induction h with
  | halt | nil => exact .inl hm
  | seen _ _ _ ih | absent _ _ _ _ ih =>
    obtain hp | ⟨hv, k, hk, hr⟩ := ih hm
    · exact .inl hp
    · exact .inr ⟨hv, k, List.mem_cons_of_mem _ hk, hr⟩
  | @cut path p n _ _ _ _ _ hv _ _ ih =>
    obtain hp | ⟨hvm, k, hk, hr⟩ := ih hm
    · rw [Progress.visited_enter, mem_insert_iff] at hp
      obtain rfl | hp := hp
      · exact .inr ⟨hv, m, List.mem_cons_self, .refl⟩
      · exact .inl hp
    · exact .inr ⟨hvm, n, List.mem_cons_self, .head ⟨hv, hk⟩ hr⟩
  | @visit path p n _ _ _ q _ _ _ hv _ _ _ ihbelow ihrest =>
    obtain hq | ⟨hvm, k, hk, hr⟩ := ihrest hm
    · obtain hp | ⟨hvm, k, hk, hr⟩ := ihbelow hq
      · rw [Progress.visited_enter, mem_insert_iff] at hp
        obtain rfl | hp := hp
        · exact .inr ⟨hv, m, List.mem_cons_self, .refl⟩
        · exact .inl hp
      · exact .inr ⟨hvm, n, List.mem_cons_self, .head ⟨hv, hk⟩ hr⟩
    · exact .inr ⟨hvm, k, List.mem_cons_of_mem _ hk, hr⟩

/-- A walk finds cycles only at nodes that lie on one. The nodes of the path lead to all that is
to be visited. -/
theorem cyclic_of_mem_cycles (h : Explores v pre post flags path p ns left q)
    (hpath : ∀ a, a ∈ path → ∀ n ∈ ns, TransGen (v.Leads flags) a n) {c : N}
    (hc : c ∈ q.status.cycles) :
    c ∈ p.status.cycles ∨
      TransGen (v.Leads flags) c c ∧ ∃ n ∈ ns, ReflTransGen (v.Leads flags) n c := by
  -- what is found when a node is entered, and below it
  have hentered : ∀ {path : Std.ExtTreeSet N} {p : Progress σ N ε} {n : N},
      v.contains n = true → (∀ a, a ∈ path → TransGen (v.Leads flags) a n) →
      (c ∈ (p.enter v pre flags (path.insert n) n).status.cycles ∨
        TransGen (v.Leads flags) c c ∧
          ∃ m ∈ v.neighbours flags n, ReflTransGen (v.Leads flags) m c) →
      c ∈ p.status.cycles ∨ TransGen (v.Leads flags) c c ∧ ReflTransGen (v.Leads flags) n c := by
    intro path p n hv hpath hfound
    obtain henter | ⟨hcyclic, m, hm, hr⟩ := hfound
    · obtain hp | ⟨-, hnext, -, hback⟩ := Progress.mem_cycles_enter.mp henter
      · exact .inl hp
      · have hlead : v.Leads flags n c := ⟨hv, hnext⟩
        obtain rfl | hback := mem_insert_iff.mp hback
        · exact .inr ⟨.single hlead, .refl⟩
        · exact .inr ⟨(hpath c hback).tail hlead, .single hlead⟩
    · exact .inr ⟨hcyclic, .head ⟨hv, hm⟩ hr⟩
  have hdeeper : ∀ {path : Std.ExtTreeSet N} {n : N}, v.contains n = true →
      (∀ a, a ∈ path → TransGen (v.Leads flags) a n) →
      ∀ a, a ∈ path.insert n → ∀ m ∈ v.neighbours flags n, TransGen (v.Leads flags) a m := by
    intro path n hv hpath a ha m hm
    obtain rfl | ha := mem_insert_iff.mp ha
    · exact .single ⟨hv, hm⟩
    · exact (hpath a ha).tail ⟨hv, hm⟩
  induction h with
  | halt | nil => exact .inl hc
  | seen _ _ _ ih | absent _ _ _ _ ih =>
    obtain hp | ⟨hcyclic, m, hm, hr⟩ :=
      ih (fun a ha m hm => hpath a ha m (List.mem_cons_of_mem _ hm)) hc
    · exact .inl hp
    · exact .inr ⟨hcyclic, m, List.mem_cons_of_mem _ hm, hr⟩
  | @cut path p n _ _ _ _ _ hv _ _ ih =>
    have hn : ∀ a, a ∈ path → TransGen (v.Leads flags) a n := fun a ha =>
      hpath a ha n List.mem_cons_self
    obtain hp | ⟨hcyclic, hr⟩ := hentered hv hn (ih (hdeeper hv hn) hc)
    · exact .inl hp
    · exact .inr ⟨hcyclic, n, List.mem_cons_self, hr⟩
  | @visit path p n _ _ _ q _ _ _ hv _ _ _ ihbelow ihrest =>
    have hn : ∀ a, a ∈ path → TransGen (v.Leads flags) a n := fun a ha =>
      hpath a ha n List.mem_cons_self
    obtain hq | ⟨hcyclic, m, hm, hr⟩ :=
      ihrest (fun a ha m hm => hpath a ha m (List.mem_cons_of_mem _ hm)) hc
    · rw [Progress.cycles_call] at hq
      obtain hp | ⟨hcyclic, hr⟩ := hentered hv hn (ihbelow (hdeeper hv hn) hq)
      · exact .inl hp
      · exact .inr ⟨hcyclic, n, List.mem_cons_self, hr⟩
    · exact .inr ⟨hcyclic, m, List.mem_cons_of_mem _ hm, hr⟩

end Explores

end DepthFirst

end Multidigraph.Walk
