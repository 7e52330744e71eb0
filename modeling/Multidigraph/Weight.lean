namespace Multidigraph

structure Weight where
  bits : UInt64
  deriving DecidableEq

namespace Weight

def one : Weight := ⟨0x3ff0000000000000⟩

end Weight

end Multidigraph
