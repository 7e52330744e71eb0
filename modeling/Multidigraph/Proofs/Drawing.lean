import Multidigraph.Export.Dot
import Multidigraph.Proofs.Selection

namespace Multidigraph

namespace Decimal

def IsNumeral (c : Char) : Prop := c.isDigit = true ∨ c ∈ ['-', '+', '.', 'e']

variable {c : Char}

theorem isNumeral_of_mem_toDigits {n : Nat} (hc : c ∈ Nat.toDigits 10 n) : IsNumeral c :=
  .inl (Nat.isDigit_of_mem_toDigits (by decide) (by decide) hc)

theorem isNumeral_of_mem_zeros {n : Nat} (hc : c ∈ zeros n) : IsNumeral c := by
  rw [(List.mem_replicate.mp hc).2]
  exact .inl (by decide)

theorem isNumeral_of_mem_aroundPoint {pointZero : Bool} {ds : List Char} {leading : Int}
    (hds : ∀ d ∈ ds, IsNumeral d) (hc : c ∈ aroundPoint pointZero ds leading) : IsNumeral c := by
  have hzero : IsNumeral '0' := .inl (by decide)
  have hpoint : IsNumeral '.' := .inr (by decide)
  unfold aroundPoint at hc
  split at hc
  · simp only [List.mem_cons, List.mem_append, List.cons_append] at hc
    obtain rfl | rfl | hc | hc := hc
    · exact hzero
    · exact hpoint
    · exact isNumeral_of_mem_zeros hc
    · exact hds c hc
  · dsimp only at hc
    split at hc
    · simp only [List.mem_append] at hc
      obtain (hc | hc) | hc := hc
      · exact hds c hc
      · exact isNumeral_of_mem_zeros hc
      · split at hc
        · simp only [List.mem_cons, List.not_mem_nil, or_false] at hc
          obtain rfl | rfl := hc
          · exact hpoint
          · exact hzero
        · cases hc
    · simp only [List.mem_append, List.mem_cons] at hc
      obtain hc | rfl | hc := hc
      · exact hds c (List.mem_of_mem_take hc)
      · exact hpoint
      · exact hds c (List.mem_of_mem_drop hc)

theorem isNumeral_of_mem_withExponent {ds : List Char} {leading : Int}
    (hds : ∀ d ∈ ds, IsNumeral d) (hc : c ∈ withExponent ds leading) : IsNumeral c := by
  simp only [withExponent, List.mem_append, List.mem_cons] at hc
  obtain hc | rfl | rfl | hc := hc
  · split at hc
    · exact hds c hc
    · simp only [List.mem_append, List.mem_cons] at hc
      obtain hc | rfl | hc := hc
      · exact hds c (List.mem_of_mem_take hc)
      · exact .inr (by decide)
      · exact hds c (List.mem_of_mem_drop hc)
  · exact .inr (by decide)
  · split <;> exact .inr (by decide)
  · exact isNumeral_of_mem_toDigits hc

theorem Layout.isNumeral_of_mem_text {l : Layout} {negative : Bool} {significand : Nat}
    {exponent : Int} (hc : c ∈ (l.text negative significand exponent).toList) : IsNumeral c := by
  rw [Layout.text, String.toList_ofList, List.mem_append] at hc
  obtain hc | hc := hc
  · split at hc
    · rw [List.mem_singleton.mp hc]
      exact .inr (by decide)
    · cases hc
  · unfold Layout.unsigned at hc
    split at hc
    · refine isNumeral_of_mem_aroundPoint (fun d hd => ?_) hc
      rw [List.mem_singleton.mp hd]
      exact .inl (by decide)
    · dsimp only at hc
      split at hc
      · exact isNumeral_of_mem_aroundPoint (fun d hd => isNumeral_of_mem_toDigits hd) hc
      · exact isNumeral_of_mem_withExponent (fun d hd => isNumeral_of_mem_toDigits hd) hc

end Decimal

namespace Dot

section Escape

theorem escapeChar_cases (c : Char) :
    c = '\\' ∨ c = '"' ∨ c = '\n' ∨
      c ≠ '\\' ∧ c ≠ '"' ∧ c ≠ '\n' ∧ escapeChar c = [c] := by
  unfold escapeChar
  split
  · exact .inl rfl
  · exact .inr (.inl rfl)
  · exact .inr (.inr (.inl rfl))
  · next hback hquote hnewline => exact .inr (.inr (.inr ⟨hback, hquote, hnewline, rfl⟩))

def replace (c : Char) (text cs : List Char) : List Char :=
  cs.flatMap fun d => if d = c then text else [d]

theorem replace_append (c : Char) (text cs ds : List Char) :
    replace c text (cs ++ ds) = replace c text cs ++ replace c text ds :=
  List.flatMap_append

/-- One pass over a text escapes it as three replacements do, one after the other. Backslashes have
to be the first to go, since both other replacements write some. -/
theorem toList_escape_eq_replace (s : String) :
    (escape s).toList =
      replace '\n' ['\\', 'n'] (replace '"' ['\\', '"'] (replace '\\' ['\\', '\\'] s.toList)) := by
  have hchar : ∀ c, escapeChar c =
      replace '\n' ['\\', 'n'] (replace '"' ['\\', '"'] (replace '\\' ['\\', '\\'] [c])) := by
    intro c
    obtain rfl | rfl | rfl | ⟨hback, hquote, hnewline, hself⟩ := escapeChar_cases c
    · rfl
    · rfl
    · rfl
    · simp [hself, replace, hback, hquote, hnewline]
  rw [escape, String.toList_ofList]
  induction s.toList with
  | nil => rfl
  | cons c cs ih =>
    rw [List.flatMap_cons, ih, hchar, ← replace_append, ← replace_append, ← replace_append,
      List.singleton_append]

def unescape? : Char → Option Char
  | '\\' => some '\\'
  | '"' => some '"'
  | 'n' => some '\n'
  | _ => none

/-- Reads quoted text up to the first quote that is not escaped, and says what comes after it. -/
def unquote? : List Char → Option (List Char × List Char)
  | [] => none
  | '"' :: cs => some ([], cs)
  | '\\' :: c :: cs =>
    (unescape? c).bind fun c => (unquote? cs).map fun (text, rest) => (c :: text, rest)
  | c :: cs => (unquote? cs).map fun (text, rest) => (c :: text, rest)

theorem unquote?_quote (rest : List Char) : unquote? ('"' :: rest) = some ([], rest) := by
  rw [unquote?]

theorem unquote?_escapeChar_append (c : Char) (rest : List Char) :
    unquote? (escapeChar c ++ rest) = (unquote? rest).map fun p => (c :: p.1, p.2) := by
  obtain rfl | rfl | rfl | ⟨hback, hquote, -, hself⟩ := escapeChar_cases c
  · simp [escapeChar, unquote?, unescape?]
  · simp [escapeChar, unquote?, unescape?]
  · simp [escapeChar, unquote?, unescape?]
  · rw [hself, List.singleton_append, unquote?]
    · exact hquote
    · exact fun d ds h => absurd h hback

/-- No escaped text ends the quoted text that it is part of, nor does its end join with the next
part. -/
theorem unquote?_escape_append (s : String) (rest : List Char) :
    unquote? ((escape s).toList ++ rest) = (unquote? rest).map fun p => (s.toList ++ p.1, p.2) := by
  rw [escape, String.toList_ofList]
  induction s.toList with
  | nil => simp
  | cons c cs ih =>
    rw [List.flatMap_cons, List.append_assoc, unquote?_escapeChar_append, ih, Option.map_map]
    rfl

theorem newline_not_mem_escape (s : String) : '\n' ∉ (escape s).toList := by
  rw [escape, String.toList_ofList, List.mem_flatMap]
  rintro ⟨c, -, hc⟩
  obtain rfl | rfl | rfl | ⟨-, -, hnewline, hself⟩ := escapeChar_cases c
  · exact absurd hc (by decide)
  · exact absurd hc (by decide)
  · exact absurd hc (by decide)
  · rw [hself, List.mem_singleton] at hc
    exact hnewline hc.symm

theorem escape_append (s t : String) : escape (s ++ t) = escape s ++ escape t := by
  apply String.toList_injective
  simp [escape]

def Plain (s : String) : Prop := ∀ c ∈ s.toList, c ≠ '\\' ∧ c ≠ '"' ∧ c ≠ '\n'

instance (s : String) : Decidable (Plain s) := List.decidableBAll _ s.toList

theorem Plain.escape_eq {s : String} (hs : Plain s) : escape s = s := by
  apply String.toList_injective
  have hself : s.toList.flatMap escapeChar = s.toList.flatMap fun c => [c] := by
    refine List.flatMap_congr fun c hc => ?_
    obtain ⟨hback, hquote, hnewline⟩ := hs c hc
    simpa [hback, hquote, hnewline] using escapeChar_cases c
  rw [escape, String.toList_ofList, hself]
  simp

theorem Plain.append {s t : String} (hs : Plain s) (ht : Plain t) : Plain (s ++ t) := by
  intro c hc
  rw [String.toList_append, List.mem_append] at hc
  exact hc.elim (hs c) (ht c)

theorem plain_of_isNumeral {s : String} (hs : ∀ c ∈ s.toList, Decimal.IsNumeral c) : Plain s := by
  intro c hc
  refine ⟨?_, ?_, ?_⟩ <;>
  · rintro rfl
    obtain h | h := hs _ hc <;> revert h <;> decide

theorem plain_toString (n : Nat) : Plain (toString n) := by
  refine plain_of_isNumeral fun c hc => ?_
  rw [Nat.toString_eq_repr, Nat.toList_repr] at hc
  exact Decimal.isNumeral_of_mem_toDigits hc

theorem plain_handle (h : NodeHandle) : Plain h.text :=
  .append (by decide) (plain_toString h.slot)

theorem plain_weightText (w : Weight) : Plain (weightText w) := by
  unfold weightText
  split
  · decide
  · split <;> decide
  · exact plain_of_isNumeral fun c hc => Decimal.Layout.isNumeral_of_mem_text hc

end Escape

structure Statement where
  front : String
  label : String
  back : String
  deriving DecidableEq

namespace Statement

/-- Reads a line: what stands before the first quote, the label, and what comes after it. -/
def read? (line : List Char) : Option Statement :=
  (unquote? (line.dropWhile (· ≠ '"')).tail).map fun (label, back) =>
    ⟨.ofList (line.takeWhile (· ≠ '"')), .ofList label, .ofList back⟩

/-- A node shows its label, or its id if it has no label, and the colour of the first of its
categories that has one. -/
def ofNode (style : Style) (h : NodeHandle) (n : Node) : Statement where
  front := "    " ++ h.text ++ " [label="
  label := if n.label = "" then n.id else n.label
  back := ", fillcolor=\"" ++
    (n.categories.filterMap fun c => style.categoryColors.lookup c).headD "#FFFFFF" ++ "\"];"

/-- An edge shows its label, and then its relation unless that is the default one, and its weight if
weights are shown. -/
def ofEdge (style : Style) (e : Edge) : Statement where
  front := "    " ++ e.source.text ++ " -> " ++ e.destination.text ++ " [label="
  label := e.label ++
    (if e.relation.name = "DEFAULT" then "" else " [" ++ e.relation.name ++ "]") ++
    if style.showWeights then " (" ++ weightText e.weight ++ ")" else ""
  back := ((style.relationColors.lookup e.relation).elim ""
    fun color => ", color=\"" ++ color ++ "\"") ++ "];"

def line (s : Statement) : String := s.front ++ "\"" ++ escape s.label ++ "\"" ++ s.back

variable {s : Statement} {style : Style}

theorem read?_line (hfront : Plain s.front) : read? s.line.toList = some s := by
  have hbefore : ∀ c ∈ s.front.toList, decide (c ≠ '"') = true :=
    fun c hc => decide_eq_true (hfront c hc).2.1
  have hline : s.line.toList =
      s.front.toList ++ '"' :: ((escape s.label).toList ++ '"' :: s.back.toList) := by
    simp [line]
  rw [read?, hline, List.takeWhile_append_of_pos hbefore, List.dropWhile_append_of_pos hbefore,
    List.takeWhile_cons_of_neg (by simp), List.dropWhile_cons_of_neg (by simp), List.tail_cons,
    unquote?_escape_append, unquote?_quote]
  simp

theorem newline_not_mem_line (hfront : Plain s.front) (hback : '\n' ∉ s.back.toList) :
    '\n' ∉ s.line.toList := by
  have hlabel := newline_not_mem_escape s.label
  have hnone : '\n' ∉ s.front.toList := fun h => (hfront _ h).2.2 rfl
  simp [line, hnone, hlabel, hback]

theorem plain_front_ofNode (h : NodeHandle) (n : Node) : Plain (ofNode style h n).front :=
  .append (.append (by decide) (plain_handle h)) (by decide)

theorem plain_front_ofEdge (e : Edge) : Plain (ofEdge style e).front :=
  .append (.append (.append (.append (by decide) (plain_handle _)) (by decide)) (plain_handle _))
    (by decide)

theorem nodeLine_eq (h : NodeHandle) (n : Node) : nodeLine style h n = (ofNode style h n).line := by
  have hlabel : nodeLabel n = (ofNode style h n).label := by
    simp [nodeLabel, ofNode]
  have hcolor : nodeColor style n =
      (n.categories.filterMap fun c => style.categoryColors.lookup c).headD "#FFFFFF" := by
    rw [nodeColor, ← List.head?_filterMap, List.headD_eq_head?_getD]
  have hopen : " [label=\"" = " [label=" ++ "\"" := rfl
  have hclose : "\", fillcolor=\"" = "\"" ++ ", fillcolor=\"" := rfl
  rw [nodeLine, hlabel, hcolor, hopen, hclose]
  simp only [line, ofNode, String.append_assoc]

theorem edgeLabel_eq (e : Edge) : edgeLabel style e = escape (ofEdge style e).label := by
  have hdefault : (e.relation == .default) = decide (e.relation.name = "DEFAULT") := by
    rw [Bool.eq_iff_iff, Relation.beq_iff_name, decide_eq_true_iff]
    rfl
  have hopen : escape " [" = " [" := Plain.escape_eq (by decide)
  have hclose : escape "]" = "]" := Plain.escape_eq (by decide)
  have hweight : escape (" (" ++ weightText e.weight ++ ")") = " (" ++ weightText e.weight ++ ")" :=
    Plain.escape_eq (.append (.append (by decide) (plain_weightText _))
      (by decide))
  have hempty : escape "" = "" := rfl
  simp only [edgeLabel, ofEdge, hdefault, decide_eq_true_eq, escape_append, apply_ite escape, hopen,
    hclose, hempty]
  rw [← hweight]
  simp only [escape_append]

theorem edgeLine_eq (e : Edge) : edgeLine style e = (ofEdge style e).line := by
  have hcolor : edgeColor style e = (style.relationColors.lookup e.relation).elim ""
      fun color => ", color=\"" ++ color ++ "\"" := by
    unfold edgeColor
    cases style.relationColors.lookup e.relation <;> rfl
  have hopen : " [label=\"" = " [label=" ++ "\"" := rfl
  rw [edgeLine, edgeLabel_eq, hcolor, hopen]
  simp only [line, ofEdge, String.append_assoc]

end Statement

structure Style.Unbroken (style : Style) : Prop where
  rankDirection : '\n' ∉ style.rankDirection.toList
  categoryColors : ∀ p ∈ style.categoryColors, '\n' ∉ p.2.toList
  relationColors : ∀ p ∈ style.relationColors, '\n' ∉ p.2.toList

namespace Style.Unbroken

variable {style : Style}

theorem of_lookup {K : Type} [BEq K] {colors : List (K × String)} {k : K} {color : String}
    (hcolors : ∀ p ∈ colors, '\n' ∉ p.2.toList) (hcolor : colors.lookup k = some color) :
    '\n' ∉ color.toList := by
  rw [List.lookup_eq_findSome?] at hcolor
  obtain ⟨p, hp, hfound⟩ := List.exists_of_findSome?_eq_some hcolor
  split at hfound
  · obtain rfl := Option.some.inj hfound
    exact hcolors p hp
  · cases hfound

theorem newline_not_mem_nodeLine (hstyle : style.Unbroken) (h : NodeHandle) (n : Node) :
    '\n' ∉ (nodeLine style h n).toList := by
  have hcolor : '\n' ∉ ((n.categories.filterMap fun c => style.categoryColors.lookup c).headD
      "#FFFFFF").toList := by
    cases hfound : n.categories.filterMap fun c => style.categoryColors.lookup c with
    | nil => decide
    | cons color colors =>
      have hmem : color ∈ n.categories.filterMap fun c => style.categoryColors.lookup c :=
        hfound ▸ List.mem_cons_self
      obtain ⟨c, -, hc⟩ := List.mem_filterMap.mp hmem
      exact of_lookup hstyle.categoryColors hc
  rw [Statement.nodeLine_eq]
  apply Statement.newline_not_mem_line (Statement.plain_front_ofNode h n)
  simpa [Statement.ofNode] using hcolor

theorem newline_not_mem_edgeLine (hstyle : style.Unbroken) (e : Edge) :
    '\n' ∉ (edgeLine style e).toList := by
  rw [Statement.edgeLine_eq]
  apply Statement.newline_not_mem_line (Statement.plain_front_ofEdge e)
  cases hcolor : style.relationColors.lookup e.relation with
  | none => simp [Statement.ofEdge, hcolor]
  | some color =>
    have hunbroken : '\n' ∉ color.toList := of_lookup hstyle.relationColors hcolor
    simp [Statement.ofEdge, hcolor, hunbroken]

theorem newline_not_mem_lines (hstyle : style.Unbroken) {g : Graph} :
    ∀ l ∈ lines style g, '\n' ∉ l.toList := by
  have hrank := hstyle.rankDirection
  intro l hl
  simp only [lines, header, List.mem_cons, List.mem_append, List.mem_map, List.not_mem_nil,
    or_false] at hl
  obtain (((((rfl | rfl | rfl) | rfl) | ⟨p, -, rfl⟩) | rfl) | ⟨p, -, rfl⟩) | rfl := hl
  · decide
  · simp [hrank]
  · decide
  · decide
  · exact hstyle.newline_not_mem_nodeLine p.1 p.2
  · decide
  · exact hstyle.newline_not_mem_edgeLine p.2
  · decide

end Style.Unbroken

theorem splitOn_lines {ls : List String} (hls : ∀ l ∈ ls, '\n' ∉ l.toList) :
    (String.join (ls.map (· ++ "\n"))).toList.splitOn '\n' = ls.map String.toList ++ [[]] := by
  rw [String.toList_join]
  induction ls with
  | nil => rfl
  | cons l ls ih =>
    have hfirst : '\n' ∉ l.toList := hls l List.mem_cons_self
    have hend : (l ++ "\n").toList = l.toList ++ ['\n'] := String.toList_append
    rw [List.map_cons, List.flatMap_cons, hend, List.append_assoc, List.singleton_append,
      List.splitOn_append_cons_self_of_not_mem hfirst,
      ih fun k hk => hls k (List.mem_cons_of_mem _ hk)]
    rfl

end Dot

namespace Graph

open Dot (Statement Style)

/-- A drawing falls into three lines of its own, a line for each node in id order, and a line for
each edge in id order, with an empty line before either list and a brace at the end. An edge leads
from one of the nodes shown to another. What is read from a line is what it was meant to say, no
matter which characters stand in the label. -/
theorem dotStyled_ofHistory (id : GraphId) (history : List Operation) (style : Style)
    (hstyle : style.Unbroken) :
    let g := ofHistory id history
    ∃ (nodes : List (NodeHandle × Node)) (edges : List (EdgeHandle × Edge))
      (nodeLines edgeLines : List (List Char)),
      (∀ h n, (h, n) ∈ nodes ↔ g.node? h = some n) ∧
      (nodes.Pairwise fun a b => a.2.id < b.2.id) ∧
      (∀ k e, (k, e) ∈ edges ↔ g.edge? k = some e) ∧
      (edges.Pairwise fun a b => a.2.id < b.2.id) ∧
      (∀ p ∈ edges, p.2.source ∈ nodes.map Prod.fst ∧ p.2.destination ∈ nodes.map Prod.fst) ∧
      (g.dotStyled style).toList.splitOn '\n' =
        ["digraph G \x7b".toList, ("    rankdir=" ++ style.rankDirection ++ ";").toList,
          "    node [shape=box, style=filled];".toList, []] ++ nodeLines ++ [[]] ++ edgeLines ++
          ["\x7d".toList, []] ∧
      nodeLines.map Statement.read? = nodes.map (fun p => some (.ofNode style p.1 p.2)) ∧
      edgeLines.map Statement.read? = edges.map fun p => some (.ofEdge style p.2) := by
  intro g
  have hg : g.WellFormed := ofHistory_wellFormed id history
  have hlive : ∀ h, g.hasNode h = true → h ∈ g.nodes.map Prod.fst := by
    intro h hh
    obtain ⟨n, hn⟩ := Option.isSome_iff_exists.mp hh
    exact List.mem_map_of_mem (hg.mem_nodes_iff.mpr hn)
  refine ⟨g.nodes, g.edges, g.nodes.map fun p => (Dot.nodeLine style p.1 p.2).toList,
    g.edges.map fun p => (Dot.edgeLine style p.2).toList, fun h n => hg.mem_nodes_iff,
    listing_ascending hg.nodeIds, fun k e => hg.mem_edges_iff, listing_ascending hg.edgeIds,
    ?_, ?_, ?_, ?_⟩
  · rintro ⟨k, e⟩ hp
    obtain ⟨hsource, hdestination, -⟩ := hg.edges k e (hg.mem_edges_iff.mp hp)
    exact ⟨hlive _ hsource, hlive _ hdestination⟩
  · rw [dotStyled, Dot.splitOn_lines hstyle.newline_not_mem_lines]
    simp [Dot.lines, Dot.header, Function.comp_def]
  · rw [List.map_map]
    refine List.map_congr_left fun p _ => ?_
    rw [Function.comp_apply, Statement.nodeLine_eq,
      Statement.read?_line (Statement.plain_front_ofNode p.1 p.2)]
  · rw [List.map_map]
    refine List.map_congr_left fun p _ => ?_
    rw [Function.comp_apply, Statement.edgeLine_eq,
      Statement.read?_line (Statement.plain_front_ofEdge p.2)]

/-- Labels with a quote, a backslash at the end and a line break, a relation with a quote in its
name, and edges with the weight 1, another weight and none that is a number. -/
theorem dotStyled_ofHistory_escaped :
    let history : List Operation := [.putNode "b" "say \"hi\"\\", .putNode "a\n" "",
      .editNode ⟨1⟩ [.addCategory ⟨"dull"⟩, .addCategory ⟨"loud"⟩],
      .putEdge (.named "r\"]") "e" "x\\" ⟨0⟩ ⟨1⟩, .putEdge .default "d" "\ny" ⟨1⟩ ⟨1⟩,
      .putEdge .default "f" "" ⟨0⟩ ⟨0⟩, .updateEdge ⟨0⟩ (.weigh ⟨0x4004000000000000⟩),
      .updateEdge ⟨2⟩ (.weigh ⟨0x7ff8000000000000⟩)]
    let style : Style := {
      categoryColors := [(⟨"loud"⟩, "red")]
      relationColors := [(.default, "blue")]
      showWeights := true }
    let g := ofHistory ⟨⟨0⟩⟩ history
    style.Unbroken ∧
      g.dotStyled style =
        "digraph G \x7b\n    rankdir=LR;\n    node [shape=box, style=filled];\n\n" ++
          "    n1 [label=\"a\\n\", fillcolor=\"red\"];\n" ++
          "    n0 [label=\"say \\\"hi\\\"\\\\\", fillcolor=\"#FFFFFF\"];\n\n" ++
          "    n1 -> n1 [label=\"\\ny (1)\", color=\"blue\"];\n" ++
          "    n0 -> n1 [label=\"x\\\\ [r\\\"]] (2.5)\"];\n" ++
          "    n0 -> n0 [label=\" (NaN)\", color=\"blue\"];\n\x7d\n" ∧
      ∃ nodeLines edgeLines : List (List Char),
        (g.dotStyled style).toList.splitOn '\n' =
          ["digraph G \x7b".toList, ("    rankdir=" ++ style.rankDirection ++ ";").toList,
            "    node [shape=box, style=filled];".toList, []] ++ nodeLines ++ [[]] ++ edgeLines ++
            ["\x7d".toList, []] ∧
        some ⟨"    n0 [label=", "say \"hi\"\\", ", fillcolor=\"#FFFFFF\"];"⟩ ∈
          nodeLines.map Statement.read? := by
  intro history style g
  have hstyle : style.Unbroken := by
    constructor <;> decide
  obtain ⟨nodes, edges, nodeLines, edgeLines, hnodes, -, -, -, -, hlines, hread, -⟩ :=
    dotStyled_ofHistory ⟨⟨0⟩⟩ history style hstyle
  let n : Node := ⟨"b", "say \"hi\"\\", [⟨0⟩, ⟨2⟩], [⟨2⟩], [], ⟨⟨0⟩⟩⟩
  have hn : (⟨0⟩, n) ∈ nodes := (hnodes _ _).mpr (by decide +kernel)
  refine ⟨hstyle, by decide +kernel, nodeLines, edgeLines, hlines, ?_⟩
  rw [hread]
  exact List.mem_map.mpr ⟨_, hn, by decide +kernel⟩

end Graph

end Multidigraph
