import Multidigraph.Decimal.Layout
import Multidigraph.Graph.Basic

namespace Multidigraph

namespace Dot

structure Style where
  categoryColors : List (Category × String) := []
  relationColors : List (Relation × String) := []
  rankDirection : String := "LR"
  showWeights : Bool := false

/-- Weights never have an exponent, and whole ones have no point. -/
def weightLayout : Decimal.Layout where
  plain _ := true
  pointZero := false
  tie := .up

def weightText (w : Weight) : String :=
  match Binary64.ofBits w.bits with
  | .nan => "NaN"
  | .infinite negative => if negative then "-inf" else "inf"
  | .finite negative significand exponent => weightLayout.text negative significand exponent

def escapeChar : Char → List Char
  | '\\' => ['\\', '\\']
  | '"' => ['\\', '"']
  | '\n' => ['\\', 'n']
  | c => [c]

def escape (s : String) : String := String.ofList (s.toList.flatMap escapeChar)

def nodeLabel (n : Node) : String := if n.label.isEmpty then n.id else n.label

def nodeColor (style : Style) (n : Node) : String :=
  (n.categories.findSome? fun c => style.categoryColors.lookup c).getD "#FFFFFF"

def nodeLine (style : Style) (h : NodeHandle) (n : Node) : String :=
  "    " ++ h.text ++ " [label=\"" ++ escape (nodeLabel n) ++ "\", fillcolor=\"" ++
    nodeColor style n ++ "\"];"

def edgeLabel (style : Style) (e : Edge) : String :=
  escape e.label ++
    (if e.relation == .default then "" else " [" ++ escape e.relation.name ++ "]") ++
    if style.showWeights then " (" ++ weightText e.weight ++ ")" else ""

def edgeColor (style : Style) (e : Edge) : String :=
  match style.relationColors.lookup e.relation with
  | some color => ", color=\"" ++ color ++ "\""
  | none => ""

def edgeLine (style : Style) (e : Edge) : String :=
  "    " ++ e.source.text ++ " -> " ++ e.destination.text ++ " [label=\"" ++ edgeLabel style e ++
    "\"" ++ edgeColor style e ++ "];"

def header (style : Style) : List String :=
  ["digraph G \x7b", "    rankdir=" ++ style.rankDirection ++ ";",
    "    node [shape=box, style=filled];"]

def lines (style : Style) (g : Graph) : List String :=
  header style ++ [""] ++ g.nodes.map (fun (h, n) => nodeLine style h n) ++ [""] ++
    g.edges.map (fun (_, e) => edgeLine style e) ++ ["\x7d"]

end Dot

namespace Graph

def dotStyled (g : Graph) (style : Dot.Style) : String :=
  String.join ((Dot.lines style g).map (· ++ "\n"))

def dot (g : Graph) : String := g.dotStyled {}

end Graph

end Multidigraph
