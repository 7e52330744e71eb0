import Multidigraph.Decimal.Shortest

namespace Multidigraph.Decimal

/-- Numbers whose leading digit has its exponent in `plain` are written without an exponent; the
others with one that bears its sign. -/
structure Layout where
  plain : Int → Bool
  pointZero : Bool
  tie : Tie

def zeros (n : Nat) : List Char := List.replicate n '0'

/-- Digits written around a point; the leading one has the given exponent. -/
def aroundPoint (pointZero : Bool) (ds : List Char) (leading : Int) : List Char :=
  if leading < 0 then '0' :: '.' :: zeros (-leading - 1).toNat ++ ds
  else
    let whole := leading.toNat + 1
    if ds.length ≤ whole then
      ds ++ zeros (whole - ds.length) ++ if pointZero then ['.', '0'] else []
    else ds.take whole ++ '.' :: ds.drop whole

def withExponent (ds : List Char) (leading : Int) : List Char :=
  let head := if ds.length ≤ 1 then ds else ds.take 1 ++ '.' :: ds.drop 1
  head ++ 'e' :: (if leading < 0 then '-' else '+') :: Nat.toDigits 10 leading.natAbs

def Layout.unsigned (l : Layout) (significand : Nat) (exponent : Int) : List Char :=
  if significand = 0 then aroundPoint l.pointZero ['0'] 0
  else
    let d := shortest l.tie significand exponent
    let ds := Nat.toDigits 10 d.digits
    let leading := d.exponent + (ds.length - 1 : Nat)
    if l.plain leading then aroundPoint l.pointZero ds leading else withExponent ds leading

def Layout.text (l : Layout) (negative : Bool) (significand : Nat) (exponent : Int) : String :=
  String.ofList ((if negative then ['-'] else []) ++ l.unsigned significand exponent)

end Multidigraph.Decimal
