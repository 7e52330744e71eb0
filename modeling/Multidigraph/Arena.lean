namespace Multidigraph

/-- A slot is filled once, when it is appended. Afterwards its value may be changed or taken away,
but an empty slot stays empty, and no number is given out twice. -/
structure Arena (α : Type) where
  slots : Array (Option α)
  deriving DecidableEq

namespace Arena

variable {α : Type}

def empty : Arena α := ⟨#[]⟩

def size (a : Arena α) : Nat := a.slots.size

def get? (a : Arena α) (i : Nat) : Option α := a.slots[i]?.join

def push (a : Arena α) (x : α) : Arena α := ⟨a.slots.push (some x)⟩

def modify (a : Arena α) (i : Nat) (f : α → α) : Arena α := ⟨a.slots.modify i (Option.map f)⟩

def free (a : Arena α) (i : Nat) : Arena α := ⟨a.slots.modify i fun _ => none⟩

def map (f : α → α) (a : Arena α) : Arena α := ⟨a.slots.map (Option.map f)⟩

def clear (a : Arena α) : Arena α := ⟨a.slots.map fun _ => none⟩

def toList (a : Arena α) : List α := a.slots.toList.filterMap id

@[simp] theorem get?_empty (i : Nat) : (empty : Arena α).get? i = none := by
  simp [empty, get?]

@[simp] theorem size_push (a : Arena α) (x : α) : (a.push x).size = a.size + 1 := by
  simp [push, size]

@[simp] theorem size_modify (a : Arena α) (i : Nat) (f : α → α) : (a.modify i f).size = a.size := by
  simp [modify, size]

@[simp] theorem size_free (a : Arena α) (i : Nat) : (a.free i).size = a.size := by
  simp [free, size]

@[simp] theorem size_map (a : Arena α) (f : α → α) : (a.map f).size = a.size := by
  simp [map, size]

@[simp] theorem size_clear (a : Arena α) : a.clear.size = a.size := by
  simp [clear, size]

theorem get?_push (a : Arena α) (x : α) (i : Nat) :
    (a.push x).get? i = if i = a.size then some x else a.get? i := by
  by_cases h : i = a.slots.size
  · simp [get?, push, size, h]
  · simp [get?, push, size, h, Array.getElem?_push]

theorem get?_modify (a : Arena α) (i j : Nat) (f : α → α) :
    (a.modify i f).get? j = if i = j then (a.get? j).map f else a.get? j := by
  simp only [get?, modify, Array.getElem?_modify]
  split
  · cases a.slots[j]? with
    | none => rfl
    | some slot => cases slot <;> rfl
  · rfl

theorem get?_free (a : Arena α) (i j : Nat) :
    (a.free i).get? j = if i = j then none else a.get? j := by
  simp only [get?, free, Array.getElem?_modify]
  split
  · cases a.slots[j]? <;> rfl
  · rfl

theorem get?_map (a : Arena α) (f : α → α) (i : Nat) : (a.map f).get? i = (a.get? i).map f := by
  simp only [get?, map, Array.getElem?_map]
  cases a.slots[i]? with
  | none => rfl
  | some slot => cases slot <;> rfl

@[simp] theorem get?_clear (a : Arena α) (i : Nat) : a.clear.get? i = none := by
  simp only [get?, clear, Array.getElem?_map]
  cases a.slots[i]? <;> rfl

theorem get?_eq_none_of_size_le (a : Arena α) {i : Nat} (h : a.size ≤ i) : a.get? i = none := by
  simp [get?, Array.getElem?_eq_none h]

theorem ext_get? {a b : Arena α} (hsize : a.size = b.size) (h : ∀ i, a.get? i = b.get? i) :
    a = b := by
  obtain ⟨xs⟩ := a
  obtain ⟨ys⟩ := b
  congr 1
  refine Array.ext hsize fun i hi hi' => ?_
  simpa [get?, hi, hi'] using h i

theorem map_push (f : α → α) (a : Arena α) (x : α) : (a.push x).map f = (a.map f).push (f x) := by
  refine ext_get? (by simp) fun i => ?_
  simp only [get?_map, get?_push, size_map]
  split <;> rfl

theorem map_modify {f g g' : α → α} (h : ∀ x, f (g x) = g' (f x)) (a : Arena α) (i : Nat) :
    (a.modify i g).map f = (a.map f).modify i g' := by
  refine ext_get? (by simp) fun j => ?_
  simp only [get?_map, get?_modify]
  split <;> cases a.get? j <;> simp [h]

theorem map_free (f : α → α) (a : Arena α) (i : Nat) : (a.free i).map f = (a.map f).free i := by
  refine ext_get? (by simp) fun j => ?_
  simp only [get?_map, get?_free]
  split <;> rfl

theorem map_clear (f : α → α) (a : Arena α) : a.clear.map f = (a.map f).clear := by
  refine ext_get? (by simp) fun i => ?_
  simp [get?_map]

theorem map_comm {f g : α → α} (h : ∀ x, f (g x) = g (f x)) (a : Arena α) :
    (a.map g).map f = (a.map f).map g := by
  refine ext_get? (by simp) fun i => ?_
  cases hx : a.get? i <;> simp [get?_map, hx, h]

theorem toList_eq_filterMap (a : Arena α) : a.toList = (List.range a.size).filterMap a.get? := by
  have hslots : a.slots.toList.map some = (List.range a.size).map fun i => a.slots[i]? := by
    apply List.ext_getElem <;> simp [size]
  have hjoin : a.slots.toList.filterMap id = (a.slots.toList.map some).filterMap Option.join := by
    rw [List.filterMap_map]
    rfl
  rw [toList, hjoin, hslots, List.filterMap_map]
  rfl

theorem mem_toList_of_get? (a : Arena α) {i : Nat} {x : α} (h : a.get? i = some x) :
    x ∈ a.toList := by
  rw [toList_eq_filterMap]
  refine List.mem_filterMap.mpr ⟨i, List.mem_range.mpr (Nat.lt_of_not_le fun hle => ?_), h⟩
  rw [a.get?_eq_none_of_size_le hle] at h
  cases h

end Arena

end Multidigraph
