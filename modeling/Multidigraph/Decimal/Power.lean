namespace Multidigraph

def pow2 (n : Nat) : Nat := Nat.pow 2 n

def pow5 (n : Nat) : Nat := Nat.pow 5 n

def pow10 (n : Nat) : Nat := Nat.pow 10 n

end Multidigraph
