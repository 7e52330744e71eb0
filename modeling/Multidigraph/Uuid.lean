import Multidigraph.Text.Hex

namespace Multidigraph

structure Uuid where
  bits : BitVec 128
  deriving DecidableEq

namespace Uuid

def chars (u : Uuid) : List Char :=
  let ds := Hex.digits 32 u.bits.toNat
  let cut (i n : Nat) := (ds.drop i).take n
  cut 0 8 ++ '-' :: cut 8 4 ++ '-' :: cut 12 4 ++ '-' :: cut 16 4 ++ '-' :: cut 20 12

def text (u : Uuid) : String := String.ofList u.chars

def ofDigits? (cs : List Char) : Option Uuid :=
  if cs.length = 32 then (Hex.ofDigits? cs).map fun n => ⟨BitVec.ofNat 128 n⟩ else none

def ofGroups? (cs : List Char) : Option Uuid :=
  if cs.length = 36 ∧ [8, 13, 18, 23].all (fun i => cs[i]? = some '-') then
    ofDigits? ((cs.take 8) ++ (cs.drop 9).take 4 ++ (cs.drop 14).take 4 ++ (cs.drop 19).take 4 ++
      cs.drop 24)
  else none

def urnHead : List Char := "urn:uuid:".toList

def startsWithUrn (cs : List Char) : Bool := (cs.take 9).map Char.toLower = urnHead

/-- Reads the digits bare, in groups, in groups between braces, or in groups after `urn:uuid:`. -/
def ofText? (s : String) : Option Uuid :=
  let cs := s.toList
  if cs.length = 32 then ofDigits? cs
  else if cs.length = 36 then ofGroups? cs
  else if cs.length = 38 ∧ cs.head? = some '\x7b' ∧ cs.getLast? = some '\x7d' then
    ofGroups? ((cs.drop 1).take 36)
  else if cs.length = 45 ∧ startsWithUrn cs then ofGroups? (cs.drop 9)
  else none

/-- A random identifier: all bits are drawn but those that tell its version 4 and its variant. -/
def random (draw : BitVec 128) : Uuid :=
  ⟨(draw &&& ~~~ 0x0000000000000000f000c000000000000000#128) |||
    0x00000000000040008000000000000000#128⟩

def isRandom (u : Uuid) : Bool :=
  u.bits.extractLsb' 76 4 = 4#4 && u.bits.extractLsb' 62 2 = 2#2

end Uuid

structure GraphId where
  uuid : Uuid
  deriving DecidableEq

end Multidigraph
