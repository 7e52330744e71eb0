import Multidigraph.Json.Tree
import Multidigraph.Record.Write

namespace Multidigraph.Json.Tree

def text? : Tree → Option String
  | string us => (textOfUnits? us).map String.ofList
  | _ => none

def bool? : Tree → Option Bool
  | bool b => some b
  | _ => none

def index? : Tree → Option Nat
  | number l => l.index?
  | _ => none

def weight? : Tree → Option Weight
  | number l => l.weight?
  | _ => none

def list? {α : Type} (read : Tree → Option α) : Tree → Option (List α)
  | array items => items.mapM read
  | _ => none

def nodeHandle? (t : Tree) : Option NodeHandle := t.index?.map (⟨·⟩)

def edgeHandle? (t : Tree) : Option EdgeHandle := t.index?.map (⟨·⟩)

def category? (t : Tree) : Option Category := t.text?.map (⟨·⟩)

def relation? (t : Tree) : Option Relation := t.text?.map .ofName

def graphId? (t : Tree) : Option GraphId := do
  let u ← Uuid.ofText? (← t.text?)
  some ⟨u⟩

/-- The values of a field; more than one is an error. -/
def field? (members : List (String × Tree)) (name : String) : Option (Option Tree) :=
  match members.filter (·.1 = name) with
  | [] => some none
  | [(_, v)] => some (some v)
  | _ => none

/-- An object has its fields in any order, and fields of other names are passed over; an array has
the fields in order. -/
def fields? (names : List String) : Tree → Option (List (Option Tree))
  | array items =>
    if items.length ≤ names.length then
      some (items.map some ++ List.replicate (names.length - items.length) none)
    else none
  | object members => do
    let members ← members.mapM fun (k, v) => (textOfUnits? k).map fun k => (String.ofList k, v)
    names.mapM (field? members)
  | _ => none

def flags? (t : Tree) : Option Walk.Flags := do
  match ← t.fields? Walk.Flags.fields with
  | [directed, continueOnError] =>
    let orTrue (v? : Option Tree) : Option Bool := (v?.map bool?).getD (some true)
    some ⟨← orTrue directed, ← orTrue continueOnError⟩
  | _ => none

def node? (t : Tree) : Option Node := do
  match ← t.fields? Node.fields with
  | [some id, some label, some outEdges, some inEdges, some categories, some graph] =>
    some {
      id := ← id.text?
      label := ← label.text?
      outEdges := ← outEdges.list? edgeHandle?
      inEdges := ← inEdges.list? edgeHandle?
      categories := ← categories.list? category?
      graph := ← graph.graphId? }
  | _ => none

def edge? (t : Tree) : Option Edge := do
  match ← t.fields? Edge.fields with
  | [some id, some label, some w, some relation, some source, some destination,
      some graph] =>
    some {
      id := ← id.text?
      label := ← label.text?
      weight := ← w.weight?
      relation := ← relation.relation?
      source := ← source.nodeHandle?
      destination := ← destination.nodeHandle?
      graph := ← graph.graphId? }
  | _ => none

end Multidigraph.Json.Tree
