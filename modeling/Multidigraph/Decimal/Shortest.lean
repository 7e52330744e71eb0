import Multidigraph.Decimal.Binary64

namespace Multidigraph

structure Decimal where
  digits : Nat
  exponent : Int
  deriving DecidableEq

namespace Decimal

inductive Tie where
  | toEven
  | up
  deriving DecidableEq

/-- The numbers that read back as the one in the middle lie between `low` and `high`, the ends
among them if `closed`. All four numbers count the same small part. -/
structure Interval where
  low : Nat
  middle : Nat
  high : Nat
  unit : Nat
  closed : Bool

/-- The interval around `significand * 2 ^ exponent`, with `10 ^ place` for its unit. The gap below
is half the gap above where the significand is the least of its binary order. -/
def Interval.around (significand : Nat) (exponent place : Int) : Interval :=
  let scale := pow2 (exponent - 2).toNat * pow10 (-place).toNat
  let narrow : Bool := significand = pow2 52 ∧ -1074 < exponent
  { low := (4 * significand - if narrow then 1 else 2) * scale
    middle := 4 * significand * scale
    high := (4 * significand + 2) * scale
    unit := pow2 (2 - exponent).toNat * pow10 place.toNat
    closed := significand % 2 = 0 }

def Interval.holds (v : Interval) (d : Nat) : Bool :=
  if v.closed then v.low ≤ d * v.unit ∧ d * v.unit ≤ v.high
  else v.low < d * v.unit ∧ d * v.unit < v.high

def Interval.nearest? (tie : Tie) (v : Interval) : Option Nat :=
  let below := v.middle / v.unit
  let above := below + 1
  match v.holds below, v.holds above with
  | false, false => none
  | true, false => some below
  | false, true => some above
  | true, true =>
    match compare (2 * v.middle) ((below + above) * v.unit) with
    | .lt => some below
    | .gt => some above
    | .eq => some <|
      match tie with
      | .up => above
      | .toEven => if below % 2 = 0 then below else above

def countDigits (n : Nat) : Nat := (Nat.toDigits 10 n).length

def scale (significand : Nat) (exponent : Int) : Int :=
  let num := significand * pow2 exponent.toNat
  let den := pow2 (-exponent).toNat
  if den ≤ num then countDigits (num / den) else 1 - countDigits ((den - 1) / num)

def strip : (fuel : Nat) → Decimal → Decimal
  | 0, d => d
  | fuel + 1, d =>
    if d.digits ≠ 0 ∧ d.digits % 10 = 0 then strip fuel ⟨d.digits / 10, d.exponent + 1⟩ else d

def exact (significand : Nat) (exponent : Int) : Decimal :=
  ⟨significand * pow2 exponent.toNat * pow5 (-exponent).toNat, min exponent 0⟩

/-- The shortest decimal for a positive `significand * 2 ^ exponent`: one digit is tried, then two,
and so on up to seventeen, which are always enough. -/
def shortest (tie : Tie) (significand : Nat) (exponent : Int) : Decimal :=
  let top := scale significand exponent
  let attempt (n : Nat) : Option Decimal :=
    let place := top - 1 - n
    ((Interval.around significand exponent place).nearest? tie).map (⟨·, place⟩)
  let d := ((List.range 17).findSome? attempt).getD (exact significand exponent)
  strip (countDigits d.digits) d

end Decimal

end Multidigraph
