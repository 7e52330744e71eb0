import Std.Data.ExtTreeSet

namespace Multidigraph

structure NodeHandle where
  slot : Nat
  deriving DecidableEq, Hashable

structure EdgeHandle where
  slot : Nat
  deriving DecidableEq, Hashable

namespace NodeHandle

instance : Ord NodeHandle := ⟨compareOn slot⟩

instance : Std.TransOrd NodeHandle := inferInstanceAs (Std.TransCmp (compareOn slot))

instance : Std.LawfulEqOrd NodeHandle where
  eq_of_compare {a b} h := by
    cases a; cases b
    simpa [compareOn] using Std.LawfulEqOrd.eq_of_compare (α := Nat) h

def text (h : NodeHandle) : String := "n" ++ toString h.slot

def longText (h : NodeHandle) : String := "NodeIndex(" ++ toString h.slot ++ ")"

end NodeHandle

namespace EdgeHandle

instance : Ord EdgeHandle := ⟨compareOn slot⟩

def text (h : EdgeHandle) : String := "e" ++ toString h.slot

def longText (h : EdgeHandle) : String := "EdgeIndex(" ++ toString h.slot ++ ")"

end EdgeHandle

end Multidigraph
