import Multidigraph.Decimal.Power

namespace Multidigraph

/-- A finite number is `significand * 2 ^ exponent` with its sign. -/
inductive Binary64 where
  | nan
  | infinite (negative : Bool)
  | finite (negative : Bool) (significand : Nat) (exponent : Int)
  deriving DecidableEq

namespace Binary64

def ofBits (bits : UInt64) : Binary64 :=
  let n := bits.toNat
  let negative : Bool := n / pow2 63 = 1
  let field : Nat := n / pow2 52 % pow2 11
  let fraction : Nat := n % pow2 52
  if field = 2047 then if fraction = 0 then infinite negative else nan
  else if field = 0 then finite negative fraction (-1074)
  else finite negative (pow2 52 + fraction) (field - 1075)

def infinityBits : Nat := 0x7ff0000000000000

/-- A quotient rounded to a whole number, a half to the even neighbour. -/
def divRound (num den : Nat) : Nat :=
  let q := num / den
  match compare (2 * (num % den)) den with
  | .lt => q
  | .gt => q + 1
  | .eq => q + q % 2

/-- The bits of the number nearest to a quotient, which are those of infinity if it is too large. -/
def bitsOfRatio (num den : Nat) : Nat :=
  if num = 0 then 0
  else
    let below : Int := num.log2 - den.log2
    let leading := if num * pow2 (-below).toNat < den * pow2 below.toNat then below - 1 else below
    let exponent := max (leading - 52) (-1074)
    let significand := divRound (num * pow2 (-exponent).toNat) (den * pow2 exponent.toNat)
    if significand < pow2 52 then significand
    else min infinityBits ((exponent + 1074).toNat * pow2 52 + significand)

def ratioOfBits? (bits : Nat) : Option (Nat × Nat) :=
  match ofBits bits.toUInt64 with
  | finite false significand exponent =>
    some (significand * pow2 exponent.toNat, pow2 (-exponent).toNat)
  | _ => none

end Binary64

end Multidigraph
