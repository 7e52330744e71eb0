namespace Multidigraph

variable {α : Type}

def iterate (step : α → Option α) : Nat → α → α
  | 0, a => a
  | n + 1, a =>
    match step a with
    | none => a
    | some b => iterate step n b

@[simp] theorem iterate_zero (step : α → Option α) (a : α) : iterate step 0 a = a := rfl

theorem iterate_of_none {step : α → Option α} {a : α} (h : step a = none) (n : Nat) :
    iterate step n a = a := by
  cases n <;> simp [iterate, h]

theorem iterate_of_some {step : α → Option α} {a b : α} (h : step a = some b) (n : Nat) :
    iterate step (n + 1) a = iterate step n b := by
  simp [iterate, h]

theorem iterate_add (step : α → Option α) (m n : Nat) (a : α) :
    iterate step (m + n) a = iterate step n (iterate step m a) := by
  induction m generalizing a with
  | zero => simp
  | succ m ih =>
    rw [Nat.add_right_comm]
    cases h : step a with
    | none => simp [iterate_of_none h]
    | some b => rw [iterate_of_some h, iterate_of_some h, ih]

theorem iterate_map {β : Type} {step : α → Option α} {step' : β → Option β} {f : α → β}
    (h : ∀ a, step' (f a) = (step a).map f) (n : Nat) (a : α) :
    iterate step' n (f a) = f (iterate step n a) := by
  induction n generalizing a with
  | zero => rfl
  | succ n ih => cases ha : step a <;> simp [iterate, h, ha, ih]

theorem iterate_invariant {step : α → Option α} {inv : α → Prop}
    (hstep : ∀ a b, inv a → step a = some b → inv b) {a : α} (ha : inv a) (n : Nat) :
    inv (iterate step n a) := by
  induction n generalizing a with
  | zero => exact ha
  | succ n ih =>
    cases h : step a with
    | none => rw [iterate_of_none h]; exact ha
    | some b => rw [iterate_of_some h]; exact ih (hstep a b ha h)

theorem iterate_succ (step : α → Option α) (n : Nat) (a : α) :
    iterate step (n + 1) a = iterate step n ((step a).getD a) := by
  cases h : step a with
  | none => rw [iterate_of_none h, Option.getD_none, iterate_of_none h]
  | some b => rw [iterate_of_some h, Option.getD_some]

theorem iterate_succ_last (step : α → Option α) (n : Nat) (a : α) :
    iterate step (n + 1) a = (step (iterate step n a)).getD (iterate step n a) := by
  rw [iterate_add, iterate_succ, iterate_zero]

theorem iterate_relation {β : Type} {step : α → Option α} {step' : β → Option β}
    {rel : α → β → Prop}
    (hstep : ∀ a b, rel a b → rel ((step a).getD a) ((step' b).getD b)) {a : α} {b : β}
    (hab : rel a b) (n : Nat) : rel (iterate step n a) (iterate step' n b) := by
  induction n generalizing a b with
  | zero => exact hab
  | succ n ih => rw [iterate_succ, iterate_succ]; exact ih (hstep a b hab)

/-- Steps that lower a rank end when it is used up. -/
theorem step_iterate_eq_none {step : α → Option α} (inv : α → Prop) (rank : α → Nat)
    (hstep : ∀ a b, inv a → step a = some b → inv b ∧ rank b < rank a) {a : α} (ha : inv a)
    {n : Nat} (hn : rank a ≤ n) : step (iterate step n a) = none := by
  induction n generalizing a with
  | zero =>
    cases h : step a with
    | none => exact h
    | some b => have hlt := (hstep a b ha h).2; omega
  | succ n ih =>
    cases h : step a with
    | none => rw [iterate_of_none h]; exact h
    | some b =>
      obtain ⟨hb, hlt⟩ := hstep a b ha h
      rw [iterate_of_some h]
      exact ih hb (by omega)

theorem exists_step_iterate_eq_none {β : Type} {r : β → β → Prop} (hr : WellFounded r)
    {step : α → Option α} (inv : α → Prop) (rank : α → β)
    (hstep : ∀ a b, inv a → step a = some b → inv b ∧ r (rank b) (rank a)) {a : α} (ha : inv a) :
    ∃ n, step (iterate step n a) = none := by
  induction hrank : rank a using hr.induction generalizing a with
  | h x ih =>
    cases h : step a with
    | none => exact ⟨0, h⟩
    | some b =>
      obtain ⟨hb, hlt⟩ := hstep a b ha h
      obtain ⟨n, hn⟩ := ih (rank b) (hrank ▸ hlt) hb rfl
      exact ⟨n + 1, by rwa [iterate_of_some h]⟩

/-- Whether some number of steps leads from `a` to `b`. -/
def Runs (step : α → Option α) (a b : α) : Prop := ∃ n, iterate step n a = b

namespace Runs

variable {step : α → Option α} {a b c : α}

theorem refl (step : α → Option α) (a : α) : Runs step a a := ⟨0, rfl⟩

theorem head (h : step a = some b) (hb : Runs step b c) : Runs step a c := by
  obtain ⟨n, rfl⟩ := hb
  exact ⟨n + 1, iterate_of_some h n⟩

theorem trans (ha : Runs step a b) (hb : Runs step b c) : Runs step a c := by
  obtain ⟨m, rfl⟩ := ha
  obtain ⟨n, rfl⟩ := hb
  exact ⟨m + n, iterate_add step m n a⟩

theorem tail (ha : Runs step a b) (h : step b = some c) : Runs step a c :=
  ha.trans (head h (refl step c))

theorem iterate_eq (h : Runs step a b) (hb : step b = none) {n : Nat}
    (hn : step (iterate step n a) = none) : iterate step n a = b := by
  obtain ⟨m, rfl⟩ := h
  rw [← iterate_of_none hn m, ← iterate_add, Nat.add_comm, iterate_add, iterate_of_none hb]

end Runs

end Multidigraph
