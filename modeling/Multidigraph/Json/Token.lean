import Multidigraph.Json.Literal
import Multidigraph.Text.Hex

namespace Multidigraph.Json

/-- An escape names a 16-bit unit, and units beyond the first 64 Ki characters come in pairs; only a
string that is used has to make sense. -/
inductive TextUnit where
  | char (c : Char)
  | escaped (n : Nat)

def textOfUnits? : List TextUnit → Option (List Char)
  | [] => some []
  | .char c :: us => (textOfUnits? us).map (c :: ·)
  | .escaped n :: us =>
    if n < 0xd800 ∨ 0xe000 ≤ n then (textOfUnits? us).map (Char.ofNat n :: ·)
    else
      match us with
      | .escaped m :: vs =>
        if n < 0xdc00 ∧ 0xdc00 ≤ m ∧ m < 0xe000 then
          (textOfUnits? vs).map (Char.ofNat (0x10000 + (n - 0xd800) * 0x400 + (m - 0xdc00)) :: ·)
        else none
      | _ => none

inductive Token where
  | mark (c : Char)
  | null
  | bool (b : Bool)
  | string (us : List TextUnit)
  | number (l : Literal)

def shortEscape? : Char → Option Char
  | '"' => some '"'
  | '\\' => some '\\'
  | '/' => some '/'
  | 'b' => some '\x08'
  | 'f' => some '\x0c'
  | 'n' => some '\n'
  | 'r' => some '\r'
  | 't' => some '\t'
  | _ => none

def scanString : List Char → Option (List TextUnit × List Char)
  | [] => none
  | '"' :: cs => some ([], cs)
  | '\\' :: 'u' :: a :: b :: c :: d :: cs => do
    let n ← Hex.ofDigits? [a, b, c, d]
    let (us, rest) ← scanString cs
    some (.escaped n :: us, rest)
  | '\\' :: c :: cs => do
    let e ← shortEscape? c
    let (us, rest) ← scanString cs
    some (.char e :: us, rest)
  | c :: cs =>
    if c = '\\' ∨ c.toNat < 0x20 then none
    else do
      let (us, rest) ← scanString cs
      some (.char c :: us, rest)

def isDigit (c : Char) : Bool := '0' ≤ c ∧ c ≤ '9'

def scanDigits (cs : List Char) : Option (List Char × List Char) :=
  match cs.span isDigit with
  | ([], _) => none
  | found => some found

def scanWhole : List Char → Option (List Char × List Char)
  | '0' :: cs => some (['0'], cs)
  | cs => scanDigits cs

def scanFraction : List Char → Option (Option (List Char) × List Char)
  | '.' :: cs => (scanDigits cs).map fun (ds, rest) => (some ds, rest)
  | cs => some (none, cs)

def scanExponent : List Char → Option (Option (Bool × List Char) × List Char)
  | c :: cs =>
    if c = 'e' ∨ c = 'E' then
      let (negative, cs) : Bool × List Char :=
        match cs with
        | '-' :: cs => (true, cs)
        | '+' :: cs => (false, cs)
        | cs => (false, cs)
      (scanDigits cs).map fun (ds, rest) => (some (negative, ds), rest)
    else some (none, c :: cs)
  | [] => some (none, [])

def scanNumber (cs : List Char) : Option (Literal × List Char) := do
  let (negative, cs) : Bool × List Char :=
    match cs with
    | '-' :: cs => (true, cs)
    | cs => (false, cs)
  let (whole, cs) ← scanWhole cs
  let (fraction?, cs) ← scanFraction cs
  let (exponent?, cs) ← scanExponent cs
  some (⟨negative, whole, fraction?, exponent?⟩, cs)

def isBlank (c : Char) : Bool := c = ' ' ∨ c = '\n' ∨ c = '\t' ∨ c = '\r'

def isMark (c : Char) : Bool := "[]\x7b\x7d,:".toList.contains c

def scanToken : List Char → Option (Token × List Char)
  | '"' :: cs => (scanString cs).map fun (us, rest) => (.string us, rest)
  | 'n' :: 'u' :: 'l' :: 'l' :: cs => some (.null, cs)
  | 't' :: 'r' :: 'u' :: 'e' :: cs => some (.bool true, cs)
  | 'f' :: 'a' :: 'l' :: 's' :: 'e' :: cs => some (.bool false, cs)
  | [] => none
  | c :: cs =>
    if isMark c then some (.mark c, cs)
    else (scanNumber (c :: cs)).map fun (l, rest) => (.number l, rest)

/-- Each token takes one character at least, so the length of the text bounds their number. -/
def scanTokens : (fuel : Nat) → List Char → Option (List Token)
  | 0, cs => if (cs.dropWhile isBlank).isEmpty then some [] else none
  | fuel + 1, cs =>
    match cs.dropWhile isBlank with
    | [] => some []
    | cs => do
      let (t, rest) ← scanToken cs
      (t :: ·) <$> scanTokens fuel rest

def tokens? (s : String) : Option (List Token) := scanTokens s.length s.toList

end Multidigraph.Json
