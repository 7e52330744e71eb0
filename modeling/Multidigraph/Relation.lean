namespace Multidigraph

/-- The default relation has a name like any other, so it can be spelled in two ways; relations are
told apart by name alone. -/
inductive Relation where
  | default
  | named (name : String)

namespace Relation

def name : Relation → String
  | default => "DEFAULT"
  | named s => s

/-- The relation of a name, in its first spelling. -/
def ofName (s : String) : Relation :=
  if s = "DEFAULT" then default else named s

instance : BEq Relation := ⟨fun a b => a.name == b.name⟩

instance : Hashable Relation := ⟨fun r => hash r.name⟩

instance : Inhabited Relation := ⟨default⟩

@[simp] theorem beq_iff_name {a b : Relation} : (a == b) = true ↔ a.name = b.name := by
  simp [BEq.beq]

@[simp] theorem name_ofName (s : String) : (ofName s).name = s := by
  unfold ofName
  split
  · next h => rw [h]; rfl
  · rfl

instance : EquivBEq Relation where
  rfl := by simp
  symm h := by simp_all
  trans h k := by simp_all

instance : LawfulHashable Relation where
  hash_eq a b h := by simp_all [hash]

end Relation

end Multidigraph
