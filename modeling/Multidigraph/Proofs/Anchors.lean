import Mathlib.Data.List.DropRight
import Multidigraph.Proofs.Selection

namespace Multidigraph

namespace LabelPattern

/-- A pattern as the grammar has it: one `^` in front is an anchor, and so is one `$` at the end of
what is left. -/
def ofCharsOnce (cs : List Char) : LabelPattern :=
  let rest := if cs.head? = some '^' then cs.tail else cs
  { atStart := cs.head? = some '^'
    atEnd := rest.getLast? = some '$'
    body := if rest.getLast? = some '$' then rest.dropLast else rest }

/-- A text without any `^` in front, and then without any `$` at the end. -/
def bare (cs : List Char) : List Char := (cs.dropWhile (· = '^')).rdropWhile (· = '$')

def stripped (p : LabelPattern) : LabelPattern := { p with body := bare p.body }

variable {cs label : List Char}

@[simp] theorem bare_start_cons (cs : List Char) : bare ('^' :: cs) = bare cs := by
  simp [bare]

@[simp] theorem bare_append_end (cs : List Char) : bare (cs ++ ['$']) = bare cs := by
  have hdrop : (cs ++ ['$']).dropWhile (· = '^') = cs.dropWhile (· = '^') ++ ['$'] := by
    rw [List.dropWhile_append]
    split
    · next h => rw [List.isEmpty_iff.mp h]; rfl
    · rfl
  rw [bare, hdrop, List.rdropWhile_concat_pos _ _ _ (by simp), bare]

theorem bare_sublist (cs : List Char) : (bare cs).Sublist cs :=
  (List.rdropWhile_prefix _ _).sublist.trans (List.dropWhile_suffix _).sublist

theorem bare_eq_self_iff : bare cs = cs ↔ cs.head? ≠ some '^' ∧ cs.getLast? ≠ some '$' := by
  constructor
  · intro h
    constructor
    · intro hhead
      obtain ⟨rest, rfl⟩ := List.head?_eq_some_iff.mp hhead
      have hlength := (bare_sublist rest).length_le
      rw [bare_start_cons] at h
      rw [h] at hlength
      exact absurd hlength (by simp)
    · intro hlast
      obtain ⟨rest, rfl⟩ := List.getLast?_eq_some_iff.mp hlast
      have hlength := (bare_sublist rest).length_le
      rw [bare_append_end] at h
      rw [h] at hlength
      exact absurd hlength (by simp)
  · rintro ⟨hhead, hlast⟩
    have hdrop : cs.dropWhile (· = '^') = cs := by
      cases cs with
      | nil => rfl
      | cons c cs => exact List.dropWhile_cons_of_neg (by simpa using hhead)
    rw [bare, hdrop, List.rdropWhile_eq_self_iff]
    intro hne hc
    rw [List.getLast?_eq_some_getLast hne] at hlast
    exact hlast (congrArg some (by simpa using hc))

theorem bare_body_ofCharsOnce (cs : List Char) : bare (ofCharsOnce cs).body = bare cs := by
  have hend : ∀ rest : List Char,
      bare (if rest.getLast? = some '$' then rest.dropLast else rest) = bare rest := by
    intro rest
    split
    · next h =>
      obtain ⟨init, rfl⟩ := List.getLast?_eq_some_iff.mp h
      rw [List.dropLast_concat, bare_append_end]
    · rfl
  rw [ofCharsOnce, hend]
  split
  · next h =>
    obtain ⟨rest, rfl⟩ := List.head?_eq_some_iff.mp h
    rw [List.tail_cons, bare_start_cons]
  · rfl

theorem atEnd_ofChars (hcs : cs ≠ ['$']) : (ofChars cs).atEnd = (ofCharsOnce cs).atEnd := by
  simp only [ofChars, ofCharsOnce]
  rw [decide_eq_decide]
  cases cs with
  | nil => simp
  | cons c rest =>
    cases rest with
    | nil => by_cases hc : c = '^' <;> simp_all
    | cons d rest => by_cases hc : c = '^' <;> simp [hc]

/-- A pattern is read as the grammar has it, and then its body is made bare. A lone `$` is no
anchor, but an anchor with an empty body ties nothing. -/
theorem accepts_ofChars_iff :
    (ofChars cs).accepts label = true ↔ (ofCharsOnce cs).stripped.StandsIn label := by
  rw [accepts_iff]
  by_cases hcs : cs = ['$']
  · subst hcs
    have hchars : ofChars ['$'] = ⟨false, false, []⟩ := rfl
    have honce : (ofCharsOnce ['$']).stripped = ⟨false, true, []⟩ := rfl
    rw [hchars, honce]
    constructor
    · intro _
      exact ⟨label, [], by simp, by simp, fun _ => rfl⟩
    · intro _
      exact ⟨[], label, by simp, by simp, by simp⟩
  · have hsame : ofChars cs = (ofCharsOnce cs).stripped := by
      rw [stripped, bare_body_ofCharsOnce, ← atEnd_ofChars hcs]
      rfl
    rw [hsame]

end LabelPattern

namespace Filter

/-- A label is matched with the bare body of a pattern. That is what the grammar says for all labels
exactly if the pattern has no second `^` after the first and no second `$` before the last. -/
theorem labelMatches_passes_iff (pattern : String) :
    let p : LabelPattern := .ofCharsOnce pattern.toList
    (∀ g n, (labelMatches pattern).passes g n = true ↔ p.stripped.StandsIn n.label.toList) ∧
      ((∀ g n, (labelMatches pattern).passes g n = true ↔ p.StandsIn n.label.toList) ↔
        p.body.head? ≠ some '^' ∧ p.body.getLast? ≠ some '$') := by
  intro p
  have hpasses : ∀ g n, (labelMatches pattern).passes g n = true ↔
      p.stripped.StandsIn n.label.toList := fun g n => LabelPattern.accepts_ofChars_iff
  refine ⟨hpasses, ?_⟩
  rw [← LabelPattern.bare_eq_self_iff]
  constructor
  · intro h
    -- the bare body is itself a label that passes
    let n := Node.isolated ⟨⟨0⟩⟩ "" (String.ofList (LabelPattern.bare p.body))
    have hlabel : n.label.toList = LabelPattern.bare p.body := String.toList_ofList
    have hbare : p.stripped.StandsIn n.label.toList :=
      ⟨[], [], by simp [hlabel, LabelPattern.stripped], fun _ => rfl, fun _ => rfl⟩
    obtain ⟨before, after, hsplit, -⟩ := (h (.empty ⟨⟨0⟩⟩) n).mp ((hpasses _ n).mpr hbare)
    rw [hlabel] at hsplit
    apply (LabelPattern.bare_sublist p.body).eq_of_length_le
    rw [hsplit]
    simp only [List.length_append]
    omega
  · intro hbody g n
    rw [hpasses, LabelPattern.stripped, hbody]

/-- The pattern `^^a` asks for labels that start with `^a`, but finds those that start with `a`. -/
theorem labelMatches_overstrips :
    ¬ ∀ (pattern : String) (g : Graph) (n : Node), (labelMatches pattern).passes g n = true ↔
      (LabelPattern.ofCharsOnce pattern.toList).StandsIn n.label.toList := by
  intro hall
  have hstands : (LabelPattern.ofCharsOnce "^^a".toList).StandsIn "^a".toList :=
    (LabelPattern.accepts_iff _ _).mp (by decide +kernel)
  have hpasses := (hall "^^a" (.empty ⟨⟨0⟩⟩) (.isolated ⟨⟨0⟩⟩ "n" "^a")).mpr hstands
  revert hpasses
  decide +kernel

end Filter

end Multidigraph
