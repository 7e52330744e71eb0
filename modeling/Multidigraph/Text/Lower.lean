import Multidigraph.Text.LowerRuns
import Multidigraph.Text.CasedRanges
import Multidigraph.Text.CaseIgnorableRanges

namespace Multidigraph.Text

def inRanges : List (Nat × Nat) → Nat → Bool
  | [], _ => false
  | (first, last) :: rs, n => if n < first then false else n ≤ last || inRanges rs n

def isCased (c : Char) : Bool := inRanges casedRanges c.toNat

def isCaseIgnorable (c : Char) : Bool := inRanges caseIgnorableRanges c.toNat

def lookupRun : List LowerRun → Nat → Option Int
  | [], _ => none
  | r :: rs, n =>
    if n < r.first then none
    else if n ≤ r.last ∧ (n - r.first) % r.step = 0 then some r.shift
    else lookupRun rs n

def lowerChar (c : Char) : List Char :=
  if c = 'İ' then ['i', '\u0307']
  else
    match lookupRun lowerRuns c.toNat with
    | some shift => [Char.ofNat (c.toNat + shift).toNat]
    | none => [c]

def casedAhead (cs : List Char) : Bool := ((cs.dropWhile isCaseIgnorable).head?).any isCased

/-- Whether a letter between these texts ends a word; `before` is read backwards. -/
def endsWord (before after : List Char) : Bool := casedAhead before && !casedAhead after

/-- The lower case of a text that comes after `before`, which is read backwards. -/
def lowerFrom (before : List Char) : List Char → List Char
  | [] => []
  | c :: after =>
    (if c = 'Σ' then [if endsWord before after then 'ς' else 'σ'] else lowerChar c) ++
      lowerFrom (c :: before) after

def lower (s : String) : String := String.ofList (lowerFrom [] s.toList)

end Multidigraph.Text
