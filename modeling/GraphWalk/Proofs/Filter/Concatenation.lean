import GraphWalk.Filter.Label
import GraphWalk.Proofs.Text.Split

/-!
Label filters whose texts are written after one another.

A bar between two texts separates their clauses, unless the first text ends with a backslash that
takes the bar in. The filter of the whole then has the rules of both parts; only the wildcard of one
part reaches into the other, where it lifts the allowing clauses as well.
-/

namespace GraphWalk.LabelFilter

open Text

variable {f g : String} {rule : LabelRule}

/-- Two filters as one: for every rule the alternatives of the first and then those of the second,
and no allowing ones if either is a wildcard. -/
def append (f g : LabelFilter) : LabelFilter where
  deny := f.deny ++ g.deny
  terminate := f.terminate ++ g.terminate
  endNode := f.endNode ++ g.endNode
  allow := if f.wildcard || g.wildcard then [] else f.allow ++ g.allow
  wildcard := f.wildcard || g.wildcard

lemma rule_append (f g : LabelFilter) (h : rule ≠ .allow) :
    (f.append g).rule rule = f.rule rule ++ g.rule rule := by
  cases rule with
  | allow => exact absurd rfl h
  | _ => rfl

lemma matchesRule_append (f g : LabelFilter) (h : rule ≠ .allow) (labels : List String) :
    (f.append g).matchesRule rule labels =
      (f.matchesRule rule labels || g.matchesRule rule labels) := by
  rw [matchesRule, rule_append f g h, List.any_append]
  rfl

lemma contains_wildcard_append (cs ds : List LabelClause) :
    (cs ++ ds).contains .wildcard = (cs.contains .wildcard || ds.contains .wildcard) := by
  simp

lemma ofClauses_append (cs ds : List LabelClause) :
    ofClauses (cs ++ ds) = (ofClauses cs).append (ofClauses ds) := by
  simp only [ofClauses, append, List.filterMap_append, contains_wildcard_append]
  -- what a wildcard in one part has emptied already is empty in the whole
  cases cs.contains .wildcard <;> cases ds.contains .wildcard <;> rfl

lemma clauses_append (h : Even (finalBackslashes f.toList)) (g : String) :
    clauses (f ++ "|" ++ g) = clauses f ++ clauses g := by
  have htext : (f ++ "|" ++ g).toList = f.toList ++ '|' :: g.toList := by
    rw [String.toList_append, String.toList_append, List.append_assoc]
    rfl
  rw [clauses, htext, splitUnescaped_append_cons (by decide) h, List.filterMap_append]
  rfl

lemma parse_append (h : Even (finalBackslashes f.toList)) (g : String) :
    parse (f ++ "|" ++ g) = (parse f).append (parse g) := by
  rw [parse, clauses_append h, ofClauses_append]
  rfl

/-- **Concatenation**: two texts with a bar between them are read as the filters of the two as one,
whatever they hold, if the backslashes at the end of the first come in pairs. -/
theorem texts_concatenate (h : Even (finalBackslashes f.toList)) (g : String) :
    parse (f ++ "|" ++ g) = (parse f).append (parse g) ∧
      ∀ rule, rule ≠ .allow → ∀ labels,
        ((parse (f ++ "|" ++ g)).matchesRule rule labels = true ↔
          (parse f).matchesRule rule labels = true ∨ (parse g).matchesRule rule labels = true) := by
  refine ⟨parse_append h g, fun rule hrule labels => ?_⟩
  rw [parse_append h, matchesRule_append _ _ hrule, Bool.or_eq_true]

/-- A wildcard behind the bar and a label that ends with two backslashes before it. -/
theorem texts_concatenate_wildcard :
    Even (finalBackslashes "-A|Odd\\|Even\\\\".toList) ∧
      parse ("-A|Odd\\|Even\\\\" ++ "|" ++ "-B:C|*") =
        { deny := [["A"], ["B", "C"]], wildcard := true } ∧
      LabelRule.deny ≠ .allow ∧
      (parse ("-A|Odd\\|Even\\\\" ++ "|" ++ "-B:C|*")).matchesRule .deny ["C", "B"] = true := by
  have heven : Even (finalBackslashes "-A|Odd\\|Even\\\\".toList) := by decide +kernel
  obtain ⟨hparse, hmatch⟩ := texts_concatenate heven "-B:C|*"
  exact ⟨heven, hparse.trans (by decide +kernel), by decide,
    (hmatch .deny (by decide) ["C", "B"]).mpr (.inr (by decide +kernel))⟩

end GraphWalk.LabelFilter
