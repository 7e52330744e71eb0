import Multidigraph.Proofs.Reaching

open Relation

namespace Multidigraph.Walk

variable {σ N ε : Type}

namespace DepthFirst

namespace Explores

variable [Ord N] [Std.TransOrd N] [Std.LawfulEqOrd N] {v : View N} {pre post : Visitor σ N ε}
  {flags : Flags} {path : Std.ExtTreeSet N} {p q : Progress σ N ε} {n : N} {ns left : List N}

theorem visited_of_mem (h : Explores v pre post flags path p ns left q) (hq : q.stopped = false)
    (hn : n ∈ ns) (hv : v.contains n = true) : n ∈ q.visited := by
  induction h with
  | halt hs => rw [hs] at hq; cases hq
  | nil => cases hn
  | seen _ hk hrest ih =>
    obtain rfl | hn := List.mem_cons.mp hn
    · exact hrest.visited_mono hk
    · exact ih hq hn
  | absent _ _ hk _ ih =>
    obtain rfl | hn := List.mem_cons.mp hn
    · rw [hv] at hk; cases hk
    · exact ih hq hn
  | cut _ _ _ _ hs => rw [hs] at hq; cases hq
  | visit _ _ _ hbelow _ hrest _ ihrest =>
    obtain rfl | hn := List.mem_cons.mp hn
    · exact hrest.visited_mono (hbelow.visited_mono (by simp))
    · exact ihrest hq hn

theorem mem_left_iff (h : Explores v pre post flags path p ns left q) (hq : q.stopped = false)
    (m : N) : m ∈ left ↔ m ∈ q.visited ∧ m ∉ p.visited := by
  induction h with
  | halt | nil => simp
  | seen _ _ _ ih | absent _ _ _ _ ih => exact ih hq
  | cut _ _ _ _ hs => rw [hs] at hq; cases hq
  | @visit path p n _ left left' q r _ hn _ hbelow hs hrest ihbelow ihrest =>
    have hgrow : m ∈ (p.enter v pre flags (path.insert n) n).visited → m ∈ q.visited :=
      hbelow.visited_mono
    have hgrow' : m ∈ q.visited → m ∈ r.visited := hrest.visited_mono
    have hbelow' := ihbelow hs
    have hrest' := ihrest hq
    rw [Progress.visited_enter, mem_insert_iff] at hgrow hbelow'
    rw [Progress.visited_call] at hrest'
    rw [List.mem_append, List.mem_cons, hbelow', hrest']
    by_cases hm : m = n
    · subst hm
      simp [hn, hgrow (.inl rfl), hgrow' (hgrow (.inl rfl))]
    · by_cases hp : m ∈ p.visited
      · simp [hm, hp, hgrow (.inr hp)]
      · by_cases hmq : m ∈ q.visited
        · simp [hm, hp, hmq, hgrow' hmq]
        · simp [hm, hp, hmq]

theorem nodup_left (h : Explores v pre post flags path p ns left q) (hq : q.stopped = false) :
    left.Nodup := by
  induction h with
  | halt | nil => exact .nil
  | seen _ _ _ ih | absent _ _ _ _ ih => exact ih hq
  | cut _ _ _ _ hs => rw [hs] at hq; cases hq
  | @visit path p n _ left left' q r _ _ _ hbelow hs hrest ihbelow ihrest =>
    have hn : n ∈ q.visited := hbelow.visited_mono (by simp)
    have hleft : ∀ m ∈ left', m ∉ q.visited := fun m hm =>
      ((hrest.mem_left_iff hq m).mp hm).2
    refine List.nodup_append.mpr ⟨ihbelow hs, List.nodup_cons.mpr ⟨fun h => hleft n h hn,
      ihrest hq⟩, ?_⟩
    rintro a ha b hb rfl
    obtain ⟨hvisited, hnew⟩ := (hbelow.mem_left_iff hs a).mp ha
    obtain rfl | hb := List.mem_cons.mp hb
    · exact hnew (by simp)
    · exact hleft a hb hvisited

/-- All that a node leads to is visited by the time at which the node is left. -/
theorem visited_of_leads (h : Explores v pre post flags path p ns left q)
    (hq : q.stopped = false) {a b : N} (ha : a ∈ left) (hab : v.Leads flags a b)
    (hb : v.contains b = true) : b ∈ q.visited := by
  induction h with
  | halt | nil => cases ha
  | seen _ _ _ ih | absent _ _ _ _ ih => exact ih hq ha
  | cut _ _ _ _ hs => rw [hs] at hq; cases hq
  | visit _ _ _ hbelow hs hrest ihbelow ihrest =>
    obtain ha | ha := List.mem_append.mp ha
    · exact hrest.visited_mono (ihbelow hs ha)
    obtain rfl | ha := List.mem_cons.mp ha
    · exact hrest.visited_mono (hbelow.visited_of_mem hs hab.2 hb)
    · exact ihrest hq ha

theorem mem_cycles_of_back (h : Explores v pre post flags path p ns left q)
    (hq : q.stopped = false) (hpath : ∀ m, m ∈ path → m ∈ p.visited) {a b : N} (ha : a ∈ left)
    (hab : v.Leads flags a b) (hback : b = a ∨ b ∈ path) : b ∈ q.status.cycles := by
  induction h with
  | halt | nil => cases ha
  | seen _ _ _ ih | absent _ _ _ _ ih => exact ih hq hpath ha hback
  | cut _ _ _ _ hs => rw [hs] at hq; cases hq
  | @visit path p n _ left left' q r _ _ _ hbelow hs hrest ihbelow ihrest =>
    have hpath' := Progress.mem_visited_enter pre v flags n hpath (path.insert n)
    obtain ha | ha := List.mem_append.mp ha
    · refine hrest.cycles_mono ?_
      rw [Progress.cycles_call]
      exact ihbelow hs hpath' ha (hback.imp_right fun hb => mem_insert_iff.mpr (.inr hb))
    obtain rfl | ha := List.mem_cons.mp ha
    · have hgo := hbelow.stopped_eq_false hs
      rw [Progress.stopped_enter] at hgo
      refine hrest.cycles_mono ?_
      rw [Progress.cycles_call]
      refine hbelow.cycles_mono (Progress.mem_cycles_enter.mpr (.inr ⟨hgo, hab.2, ?_, ?_⟩))
      · exact hback.imp_right (hpath b)
      · exact mem_insert_iff.mpr hback
    · have hmono : ∀ m, m ∈ path → m ∈ q.visited := fun m hm =>
        hbelow.visited_mono (hpath' m (mem_insert_iff.mpr (.inr hm)))
      exact ihrest hq hmono ha hback

/-- No node leads to one that is left after it, save where a cycle is found. -/
theorem pairwise_left (h : Explores v pre post flags path p ns left q) (hq : q.stopped = false)
    (hpath : ∀ m, m ∈ path → m ∈ p.visited) :
    left.Pairwise fun a b =>
      v.Leads flags a b → v.contains b = true → b ∈ q.status.cycles := by
  induction h with
  | halt | nil => exact .nil
  | seen _ _ _ ih | absent _ _ _ _ ih => exact ih hq hpath
  | cut _ _ _ _ hs => rw [hs] at hq; cases hq
  | @visit path p n _ left left' q r _ _ _ hbelow hs hrest ihbelow ihrest =>
    have hpath' := Progress.mem_visited_enter pre v flags n hpath (path.insert n)
    have hmono : ∀ c, c ∈ q.status.cycles → c ∈ r.status.cycles := fun c hc =>
      hrest.cycles_mono (by rwa [Progress.cycles_call])
    have hnew : ∀ b ∈ left', b ∉ q.visited := fun b hb => ((hrest.mem_left_iff hq b).mp hb).2
    refine List.pairwise_append.mpr ⟨?_, List.pairwise_cons.mpr ⟨?_, ?_⟩, ?_⟩
    · exact (ihbelow hs hpath').imp fun hab hlead hb => hmono _ (hab hlead hb)
    · intro b hb hlead hlive
      exact absurd (hbelow.visited_of_mem hs hlead.2 hlive) (hnew b hb)
    · exact ihrest hq fun m hm => hbelow.visited_mono (hpath' m (mem_insert_iff.mpr (.inr hm)))
    · intro a ha b hb hlead hlive
      -- `n` was on the path when `a` was entered; what is left after `n` was not visited by then
      obtain rfl | hb := List.mem_cons.mp hb
      · exact hmono b (hbelow.mem_cycles_of_back hs hpath' ha hlead
          (.inr (mem_insert_iff.mpr (.inl rfl))))
      · exact absurd (hbelow.visited_of_leads hs ha hlead hlive) (hnew b hb)

theorem idxOf_lt_of_leads [DecidableEq N] (h : Explores v pre post flags path p ns left q)
    (hq : q.stopped = false) (hpath : ∀ m, m ∈ path → m ∈ p.visited) {a b : N} (ha : a ∈ left)
    (hb : b ∈ left) (hab : v.Leads flags a b) (hlive : v.contains b = true)
    (hc : b ∉ q.status.cycles) : left.idxOf b < left.idxOf a := by
  have ha' : left.idxOf a < left.length := List.idxOf_lt_length_iff.mpr ha
  have hb' : left.idxOf b < left.length := List.idxOf_lt_length_iff.mpr hb
  apply Nat.lt_of_not_le
  intro hle
  obtain heq | hlt := Nat.eq_or_lt_of_le hle
  · have hba : b = a := by
      rw [← List.getElem_idxOf hb', ← List.getElem_idxOf ha']
      congr 1
      exact heq.symm
    exact hc (h.mem_cycles_of_back hq hpath ha hab (.inl hba))
  · have hpair := List.pairwise_iff_getElem.mp (h.pairwise_left hq hpath) _ _ ha' hb' hlt
    rw [List.getElem_idxOf, List.getElem_idxOf] at hpair
    exact hc (hpair hab hlive)

section Start

variable {world : σ}

theorem mem_left_iff_reaches (h : Explores v pre post flags ∅ (.start world) [n] left q)
    (hq : q.stopped = false) (hn : v.contains n = true) (m : N) :
    m ∈ left ↔ v.contains m = true ∧ ReflTransGen (v.Leads flags) n m := by
  have hstart : ∀ k, k ∉ (Progress.start world : Progress σ N ε).visited := by
    simp [Progress.start]
  constructor
  · intro hm
    obtain hp | ⟨hv, k, hk, hr⟩ := h.reached ((h.mem_left_iff hq m).mp hm).1
    · exact absurd hp (hstart m)
    · rw [List.mem_singleton.mp hk] at hr
      exact ⟨hv, hr⟩
  · rintro ⟨hv, hr⟩
    refine (h.mem_left_iff hq m).mpr ⟨?_, hstart m⟩
    induction hr with
    | refl => exact h.visited_of_mem hq List.mem_cons_self hn
    | tail _ hstep ih =>
      have hleft := (h.mem_left_iff hq _).mpr ⟨ih hstep.1, hstart _⟩
      exact h.visited_of_leads hq hleft hstep hv

theorem idxOf_lt_of_transGen [DecidableEq N]
    (h : Explores v pre post flags ∅ (.start world) [n] left q) (hq : q.stopped = false)
    (hc : q.status.hasCycles = false) {a b : N} (ha : a ∈ left)
    (hab : TransGen (v.Leads flags) a b) (hb : v.contains b = true) :
    b ∈ left ∧ left.idxOf b < left.idxOf a := by
  have hno : ∀ c, c ∉ q.status.cycles := by
    intro c hmem
    have htrue := q.status.hasCycles_iff.mpr ⟨c, hmem⟩
    rw [hc] at htrue
    cases htrue
  have hstep : ∀ {a b : N}, a ∈ left → v.Leads flags a b → v.contains b = true →
      b ∈ left ∧ left.idxOf b < left.idxOf a := by
    intro a b ha hab hb
    have hleft : b ∈ left :=
      (h.mem_left_iff hq b).mpr ⟨h.visited_of_leads hq ha hab hb, by simp [Progress.start]⟩
    exact ⟨hleft, h.idxOf_lt_of_leads hq (by simp) ha hleft hab hb (hno b)⟩
  induction hab with
  | single hab => exact hstep ha hab hb
  | tail _ hbc ih =>
    obtain ⟨hmid, hlt⟩ := ih hbc.1
    obtain ⟨hleft, hlt'⟩ := hstep hmid hbc hb
    exact ⟨hleft, Nat.lt_trans hlt' hlt⟩

/-- Some cycle is found exactly if one can be reached. -/
theorem hasCycles_iff (h : Explores v pre post flags ∅ (.start world) [n] left q)
    (hn : v.contains n = true) (hpre : pre.StopsAtCycles flags)
    (hpost : post.StopsAtCycles flags) :
    q.status.hasCycles = true ↔
      ∃ m, ReflTransGen (v.Leads flags) n m ∧ TransGen (v.Leads flags) m m := by
  classical
  constructor
  · intro hq
    obtain ⟨c, hc⟩ := q.status.hasCycles_iff.mp hq
    obtain hstart | ⟨hcyclic, k, hk, hr⟩ := h.cyclic_of_mem_cycles (by simp) hc
    · simp [Progress.start] at hstart
    · rw [List.mem_singleton.mp hk] at hr
      exact ⟨c, hr, hcyclic⟩
  · rintro ⟨m, hr, hcyclic⟩
    cases hc : q.status.hasCycles with
    | true => rfl
    | false =>
      have hq := h.stopped_of_no_cycles hpre hpost rfl hc
      obtain ⟨_, hstep, -⟩ := TransGen.head'_iff.mp hcyclic
      have hm := (h.mem_left_iff_reaches hq hn m).mpr ⟨hstep.1, hr⟩
      have hlt := (h.idxOf_lt_of_transGen hq hc hm hcyclic hstep.1).2
      exact absurd hlt (Nat.lt_irrefl _)

omit [Std.LawfulEqOrd N] in
theorem getLast?_left (h : Explores v pre post flags ∅ (.start world) [n] left q)
    (hq : q.stopped = false) (hn : v.contains n = true) : left.getLast? = some n := by
  cases h with
  | halt hs => rw [hs] at hq; cases hq
  | seen _ hvisited => simp [Progress.start] at hvisited
  | absent _ _ hv => rw [hn] at hv; cases hv
  | cut _ _ _ _ hs => rw [hs] at hq; cases hq
  | visit _ _ _ _ _ hrest =>
    cases hrest <;> simp

end Start

end Explores

end DepthFirst

end Multidigraph.Walk
