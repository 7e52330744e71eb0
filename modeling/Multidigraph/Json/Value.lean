import Multidigraph.Decimal.Layout
import Multidigraph.Text.Hex
import Multidigraph.Weight

namespace Multidigraph

/-- The members of an object keep the order in which they are given. -/
inductive Json where
  | null
  | bool (b : Bool)
  | nat (n : Nat)
  | weight (w : Weight)
  | string (s : String)
  | array (items : List Json)
  | object (members : List (String × Json))

namespace Json

/-- Weights have a point at least; from 1e16 on and below 1e-5 they have an exponent. -/
def weightLayout : Decimal.Layout where
  plain e := -5 ≤ e ∧ e ≤ 15
  pointZero := true
  tie := .toEven

def weightText (w : Weight) : String :=
  match Binary64.ofBits w.bits with
  | .finite negative significand exponent => weightLayout.text negative significand exponent
  | _ => "null"

def escapeChar (c : Char) : List Char :=
  match c with
  | '"' => ['\\', '"']
  | '\\' => ['\\', '\\']
  | '\x08' => ['\\', 'b']
  | '\x0c' => ['\\', 'f']
  | '\n' => ['\\', 'n']
  | '\r' => ['\\', 'r']
  | '\t' => ['\\', 't']
  | c => if c.toNat < 0x20 then '\\' :: 'u' :: Hex.digits 4 c.toNat else [c]

def quote (s : String) : String :=
  String.ofList ('"' :: s.toList.flatMap escapeChar ++ ['"'])

def inline (opening closing : String) (parts : List String) : String :=
  opening ++ ",".intercalate parts ++ closing

/-- Texts between brackets, each on a line of its own; nothing between the brackets if there are
none. -/
def block (indent opening closing : String) (parts : List String) : String :=
  if parts.isEmpty then opening ++ closing
  else
    let inner := indent ++ "  "
    opening ++ "\n" ++ ",\n".intercalate (parts.map (inner ++ ·)) ++ "\n" ++ indent ++ closing

mutual

def compact : Json → String
  | null => "null"
  | bool b => if b then "true" else "false"
  | nat n => toString n
  | weight w => weightText w
  | string s => quote s
  | array items => inline "[" "]" (compactItems items)
  | object members => inline "\x7b" "\x7d" (compactMembers members)

def compactItems : List Json → List String
  | [] => []
  | v :: vs => compact v :: compactItems vs

def compactMembers : List (String × Json) → List String
  | [] => []
  | (k, v) :: ms => (quote k ++ ":" ++ compact v) :: compactMembers ms

end

mutual

/-- The text after `indent` on the line where the value starts. -/
def pretty (indent : String) : Json → String
  | null => "null"
  | bool b => if b then "true" else "false"
  | nat n => toString n
  | weight w => weightText w
  | string s => quote s
  | array items => block indent "[" "]" (prettyItems (indent ++ "  ") items)
  | object members => block indent "\x7b" "\x7d" (prettyMembers (indent ++ "  ") members)

def prettyItems (indent : String) : List Json → List String
  | [] => []
  | v :: vs => pretty indent v :: prettyItems indent vs

def prettyMembers (indent : String) : List (String × Json) → List String
  | [] => []
  | (k, v) :: ms => (quote k ++ ": " ++ pretty indent v) :: prettyMembers indent ms

end

end Json

end Multidigraph
