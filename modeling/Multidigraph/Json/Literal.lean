import Multidigraph.Decimal.Binary64
import Multidigraph.Weight

namespace Multidigraph.Json

/-- A number as it is spelled. It is read in one pass: as many digits as fit into 64 bits are
collected, and the result is scaled by a power of ten in double precision. So a long literal may be
read as a neighbour of the nearest double. -/
structure Literal where
  negative : Bool
  whole : List Char
  fraction? : Option (List Char)
  exponent? : Option (Bool × List Char)

namespace Literal

def digitValue (c : Char) : Nat := c.toNat - '0'.toNat

def collect (n : Nat) : List Char → Nat × List Char
  | [] => (n, [])
  | c :: cs =>
    let next := 10 * n + digitValue c
    if next < pow2 64 then collect next cs else (n, c :: cs)

/-- The digits collected, and the power of ten by which they stand. A whole digit left out still
counts as a place. -/
def significand (l : Literal) : Nat × Int :=
  let (n, left) := collect 0 l.whole
  match l.fraction? with
  | none => (n, left.length)
  | some ds =>
    let (n, ignored) := collect n ds
    (n, (left.length : Int) - (ds.length - ignored.length : Nat))

def exponentOf? (cs : List Char) : Option Nat :=
  let n := cs.foldl (fun n c => min (pow2 31) (10 * n + digitValue c)) 0
  if n < pow2 31 then some n else none

def lastPower : Nat := 308

def tenPower (e : Nat) : Nat := Binary64.bitsOfRatio (pow10 e) 1

def divide (x y : Nat) : Nat :=
  match Binary64.ratioOfBits? x, Binary64.ratioOfBits? y with
  | some (a, b), some (c, d) => Binary64.bitsOfRatio (a * d) (b * c)
  | _, _ => Binary64.infinityBits

def multiply (x y : Nat) : Nat :=
  match Binary64.ratioOfBits? x, Binary64.ratioOfBits? y with
  | some (a, b), some (c, d) => Binary64.bitsOfRatio (a * c) (b * d)
  | _, _ => Binary64.infinityBits

def shrink : (fuel : Nat) → (x e : Nat) → Nat
  | 0, _, _ => 0
  | fuel + 1, x, e =>
    if e ≤ lastPower then divide x (tenPower e)
    else if x = 0 then 0
    else shrink fuel (divide x (tenPower lastPower)) (e - lastPower)

def scale? (x : Nat) (e : Int) : Option Nat :=
  if e < 0 then some (shrink (e.natAbs / lastPower + 1) x e.natAbs)
  else if e ≤ lastPower then
    let y := multiply x (tenPower e.toNat)
    if y < Binary64.infinityBits then some y else none
  else if x = 0 then some 0
  else none

/-- Reads the magnitude of a literal. An exponent that is out of bounds gives nothing, or zero. -/
def magnitude? (l : Literal) : Option Nat :=
  let (n, places) := l.significand
  let x := Binary64.bitsOfRatio n 1
  match l.exponent? with
  | none => scale? x places
  | some (negative, ds) =>
    match exponentOf? ds with
    | none => if n ≠ 0 ∧ !negative then none else some 0
    | some e => scale? x (if negative then places - e else places + e)

def weight? (l : Literal) : Option Weight :=
  l.magnitude?.map fun bits => ⟨(if l.negative then bits + pow2 63 else bits).toUInt64⟩

def index? (l : Literal) : Option Nat :=
  match l.fraction?, l.exponent?, collect 0 l.whole with
  | none, none, (n, []) => if l.negative then none else some n
  | _, _, _ => none

end Literal

end Multidigraph.Json
