import Multidigraph.Json.Token

namespace Multidigraph.Json

inductive Tree where
  | null
  | bool (b : Bool)
  | string (us : List TextUnit)
  | number (l : Literal)
  | array (items : List Tree)
  | object (members : List (List TextUnit × Tree))

namespace Tree

mutual

def value? : (fuel : Nat) → List Token → Option (Tree × List Token)
  | 0, _ => none
  | _ + 1, [] => none
  | fuel + 1, t :: ts =>
    match t with
    | .null => some (.null, ts)
    | .bool b => some (.bool b, ts)
    | .string us => some (.string us, ts)
    | .number l => some (.number l, ts)
    | .mark '[' =>
      match ts with
      | .mark ']' :: ts => some (.array [], ts)
      | ts => (items? fuel ts).map fun (vs, ts) => (.array vs, ts)
    | .mark '\x7b' =>
      match ts with
      | .mark '\x7d' :: ts => some (.object [], ts)
      | ts => (members? fuel ts).map fun (ms, ts) => (.object ms, ts)
    | .mark _ => none

def items? : (fuel : Nat) → List Token → Option (List Tree × List Token)
  | 0, _ => none
  | fuel + 1, ts => do
    let (v, ts) ← value? fuel ts
    match ts with
    | .mark ',' :: ts =>
      let (vs, ts) ← items? fuel ts
      some (v :: vs, ts)
    | .mark ']' :: ts => some ([v], ts)
    | _ => none

def members? : (fuel : Nat) → List Token → Option (List (List TextUnit × Tree) × List Token)
  | fuel + 1, .string k :: .mark ':' :: ts => do
    let (v, ts) ← value? fuel ts
    match ts with
    | .mark ',' :: ts =>
      let (ms, ts) ← members? fuel ts
      some ((k, v) :: ms, ts)
    | .mark '\x7d' :: ts => some ([(k, v)], ts)
    | _ => none
  | _, _ => none

end

/-- The tree of a text that is one value, with blanks around its tokens. A value and an item of a
list call for no more depth than twice the number of tokens. -/
def ofText? (s : String) : Option Tree := do
  let ts ← tokens? s
  let (v, rest) ← value? (2 * ts.length + 1) ts
  if rest.isEmpty then some v else none

end Tree

end Multidigraph.Json
