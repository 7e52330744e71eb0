namespace Multidigraph

structure Category where
  name : String
  deriving DecidableEq, Hashable

namespace Category

instance : Ord Category := ⟨compareOn name⟩

end Category

end Multidigraph
