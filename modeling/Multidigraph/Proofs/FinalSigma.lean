import Multidigraph.Proofs.History
import Multidigraph.Proofs.Listing
import Multidigraph.Query

namespace Multidigraph

namespace Text

/-- The lower case of a text that stands between two others; `before` is read backwards. -/
def lowerWithin (before : List Char) : List Char → List Char → List Char
  | [], _ => []
  | c :: cs, after =>
    (if c = 'Σ' then [if endsWord before (cs ++ after) then 'ς' else 'σ'] else lowerChar c) ++
      lowerWithin (c :: before) cs after

theorem lowerFrom_append (before cs after : List Char) :
    lowerFrom before (cs ++ after) =
      lowerWithin before cs after ++ lowerFrom (cs.reverse ++ before) after := by
  induction cs generalizing before with
  | nil => rfl
  | cons c cs ih => simp [lowerFrom, lowerWithin, ih]

theorem lowerWithin_nil (before cs : List Char) :
    lowerWithin before cs [] = lowerFrom before cs := by
  simpa [lowerFrom] using (lowerFrom_append before cs []).symm

theorem forall_sigma_cons {c : Char} {cs : List Char} {p : List Char → List Char → Prop} :
    (∀ l r, c :: cs = l ++ 'Σ' :: r → p l r) ↔
      (c = 'Σ' → p [] cs) ∧ ∀ l r, cs = l ++ 'Σ' :: r → p (c :: l) r := by
  constructor
  · intro h
    exact ⟨fun hc => h [] cs (by rw [hc]; rfl), fun l r hcs => h (c :: l) r (by rw [hcs]; rfl)⟩
  · rintro ⟨hhead, htail⟩ l r heq
    cases l with
    | nil =>
      obtain ⟨rfl, rfl⟩ := List.cons.inj heq
      exact hhead rfl
    | cons d l =>
      obtain ⟨rfl, hcs⟩ := List.cons.inj heq
      exact htail l r hcs

/-- Between two pairs of texts a text has the same lower case just if each capital sigma ends a word
between both or between neither. -/
theorem lowerWithin_eq_iff {before before' cs after after' : List Char} :
    lowerWithin before cs after = lowerWithin before' cs after' ↔
      ∀ l r, cs = l ++ 'Σ' :: r →
        endsWord (l.reverse ++ before) (r ++ after) =
          endsWord (l.reverse ++ before') (r ++ after') := by
  induction cs generalizing before before' with
  | nil => simp [lowerWithin]
  | cons c cs ih =>
    rw [forall_sigma_cons]
    simp only [List.reverse_cons, List.append_assoc, List.singleton_append, List.reverse_nil,
      List.nil_append]
    rw [← ih, lowerWithin, lowerWithin]
    -- both sigmas are one character, so that the rests stand at the same place
    by_cases hc : c = 'Σ'
    · have hletter : ∀ b b' : Bool,
          ((if b then 'ς' else 'σ') = if b' then 'ς' else 'σ') ↔ b = b' := by decide
      simp only [hc, if_true, List.cons_append, List.nil_append, List.cons.injEq, hletter,
        forall_const]
    · simp only [hc, if_false, false_imp_iff, true_and, List.append_cancel_left_eq]

theorem lower_infix {before cs after : List Char}
    (hsigmas : ∀ l r, cs = l ++ 'Σ' :: r →
      endsWord (l.reverse ++ before.reverse) (r ++ after) = endsWord l.reverse r) :
    lowerFrom [] cs <:+: lowerFrom [] (before ++ cs ++ after) := by
  have hwithin : lowerWithin before.reverse cs after = lowerWithin [] cs [] :=
    lowerWithin_eq_iff.mpr fun l r hcs => by simpa using hsigmas l r hcs
  refine ⟨lowerWithin [] before (cs ++ after), lowerFrom (cs.reverse ++ before.reverse) after, ?_⟩
  rw [← lowerWithin_nil [] cs, ← hwithin, List.append_assoc before, lowerFrom_append,
    lowerFrom_append, List.append_nil, List.append_assoc]

end Text

namespace Graph

variable {g : Graph} {h : NodeHandle} {text : String}

theorem WellFormed.mem_findNodes_iff (hg : g.WellFormed) :
    h ∈ g.findNodes text ↔ ∃ n, g.node? h = some n ∧
      (Text.lower text).toList <:+: (Text.lower n.label).toList := by
  simp [findNodes, Query.run, Query.hits, Query.accepts, Filter.passes, hg.mem_nodes_iff,
    Text.occursIn_iff_infix]

/-- A node whose label has a text in it is found by the text, if each capital sigma of the text ends
a word in the label if and only if it does so in the text. In particular it is found by a text
without capital sigmas. -/
theorem mem_findNodes_ofHistory (id : GraphId) (history : List Operation) (text : String)
    (h : NodeHandle) (n : Node) (before after : List Char) :
    let g := ofHistory id history
    g.node? h = some n → n.label.toList = before ++ text.toList ++ after →
      (∀ l r, text.toList = l ++ 'Σ' :: r →
        Text.endsWord (l.reverse ++ before.reverse) (r ++ after) = Text.endsWord l.reverse r) →
      h ∈ g.findNodes text := by
  intro g hn hlabel hsigmas
  have hg : g.WellFormed := ofHistory_wellFormed id history
  refine hg.mem_findNodes_iff.mpr ⟨n, hn, ?_⟩
  simpa [Text.lower, hlabel] using Text.lower_infix hsigmas

theorem mem_findNodes_ofHistory_words :
    let history : List Operation := [.putNode "other" "", .putNode "n" "ΜΕΣΟΣ, ΠΡΩΤΟΣ!"]
    let g := ofHistory ⟨⟨0⟩⟩ history
    (∃ n, g.node? ⟨1⟩ = some n ∧
        n.label.toList = "ΜΕ".toList ++ "ΣΟΣ".toList ++ ", ΠΡΩΤΟΣ!".toList) ∧
      (⟨1⟩ : NodeHandle) ∈ g.findNodes "ΣΟΣ" := by
  intro history g
  have hn : g.node? ⟨1⟩ = some ⟨"n", "ΜΕΣΟΣ, ΠΡΩΤΟΣ!", [], [], [], ⟨⟨0⟩⟩⟩ := by decide +kernel
  have hlabel : "ΜΕΣΟΣ, ΠΡΩΤΟΣ!".toList =
      "ΜΕ".toList ++ "ΣΟΣ".toList ++ ", ΠΡΩΤΟΣ!".toList := by decide +kernel
  refine ⟨⟨_, hn, hlabel⟩, mem_findNodes_ofHistory ⟨⟨0⟩⟩ history "ΣΟΣ" ⟨1⟩ _ _ _ hn hlabel ?_⟩
  have htext : "ΣΟΣ".toList = ['Σ', 'Ο', 'Σ'] := by decide +kernel
  rw [htext]
  simp only [Text.forall_sigma_cons]
  exact ⟨fun _ => by decide +kernel, nofun, fun _ => by decide +kernel, by simp⟩

/-- A node may have a text in its label and not be found by it: the capital sigma ends a word in the
text, and the label goes on. -/
theorem findNodes_misses :
    ¬ ∀ (id : GraphId) (history : List Operation) (text : String) (h : NodeHandle) (n : Node),
      (ofHistory id history).node? h = some n → text.toList <:+: n.label.toList →
        h ∈ (ofHistory id history).findNodes text := by
  intro hall
  have hfound := hall ⟨⟨0⟩⟩ [.putNode "n" "aΣb"] "aΣ" ⟨0⟩ ⟨"n", "aΣb", [], [], [], ⟨⟨0⟩⟩⟩
    (by decide +kernel) (by decide +kernel)
  revert hfound
  decide +kernel

end Graph

end Multidigraph
