import GraphWalk.Filter.Label
import GraphWalk.Proofs.Text.Split

/-!
Label filters that are written down and read back.

A list of clauses is written with the sign of every rule and with a backslash before the colons and
bars of its labels. Reading the text gives the clauses again, whatever else the labels hold.
-/

namespace GraphWalk

open Text

/-- A label that a filter can name. -/
structure Nameable (label : String) : Prop where
  nonempty : label ≠ ""
  front : ∀ c ∈ label.toList.head?, isBlank c = false
  back : ∀ c ∈ label.toList.getLast?, isBlank c = false
  backslashes : FreeBackslashes label.toList

lemma all_not_isBlank_iff {o : Option Char} :
    o.all (!isBlank ·) = true ↔ ∀ c ∈ o, isBlank c = false := by
  cases o <;> simp

instance (label : String) : Decidable (Nameable label) :=
  decidable_of_iff (label ≠ "" ∧ label.toList.head?.all (!isBlank ·) = true ∧
      label.toList.getLast?.all (!isBlank ·) = true ∧ FreeBackslashes label.toList)
    ⟨fun ⟨hne, hfront, hback, hslash⟩ =>
        ⟨hne, all_not_isBlank_iff.mp hfront, all_not_isBlank_iff.mp hback, hslash⟩,
      fun h => ⟨h.nonempty, all_not_isBlank_iff.mpr h.front, all_not_isBlank_iff.mpr h.back,
        h.backslashes⟩⟩

/-! ### One clause -/

namespace LabelClause

variable {rule : LabelRule} {labels : List String} {label : String}

/-- The labels as they are written. -/
def written (labels : List String) : List (List Char) := labels.map fun l => escape l.toList

/-- The text of a clause: the sign of its rule, and its labels with colons between them. -/
def render (rule : LabelRule) (labels : List String) : List Char :=
  rule.sign :: join ':' (written labels)

lemma trim_escape (h : Nameable label) : trim (escape label.toList) = escape label.toList := by
  refine trim_eq_self (fun c hc => ?_) fun c hc => ?_
  · cases hlabel : label.toList with
    | nil => simp [hlabel, escape] at hc
    | cons d ds =>
      rw [hlabel] at hc
      by_cases hspecial : d = ':' ∨ d = '|'
      · rw [escape_cons_of_special hspecial] at hc
        cases hc
        decide
      · rw [escape_cons_of_plain hspecial] at hc
        obtain rfl : d = c := Option.some.inj hc
        exact h.front d (by rw [hlabel]; rfl)
  · rw [getLast?_escape] at hc
    exact h.back c hc

lemma written_ne_nil (hne : labels ≠ []) : written labels ≠ [] := by
  simpa [written] using hne

lemma uncut_of_mem_written {sep : Char} {part : List Char} (hsep : sep = ':' ∨ sep = '|')
    (h : ∀ label ∈ labels, Nameable label) (hpart : part ∈ written labels) : Uncut sep part := by
  obtain ⟨label, hlabel, rfl⟩ := List.mem_map.mp hpart
  exact uncut_escape hsep (h label hlabel).backslashes

lemma labelsOf_join (hne : labels ≠ []) (h : ∀ label ∈ labels, Nameable label) :
    labelsOf (join ':' (written labels)) = labels := by
  have hsplit : splitUnescaped ':' (join ':' (written labels)) = written labels :=
    splitUnescaped_join (by decide) (written_ne_nil hne) fun part =>
      uncut_of_mem_written (.inl rfl) h
  have hread : (written labels).map (fun l => String.ofList (unescape (trim l))) = labels := by
    rw [written, List.map_map]
    refine (List.map_congr_left fun label hlabel => ?_).trans (List.map_id labels)
    rw [Function.comp_apply, trim_escape (h label hlabel), unescape_escape, String.ofList_toList]
    rfl
  rw [labelsOf, hsplit, hread]
  refine List.filter_eq_self.mpr fun label hlabel => ?_
  simpa [String.isEmpty_iff] using (h label hlabel).nonempty

lemma trim_render (hne : labels ≠ []) (h : ∀ label ∈ labels, Nameable label) :
    trim (render rule labels) = render rule labels := by
  refine trim_eq_self (fun c hc => ?_) fun c hc => ?_
  · cases hc
    cases rule <;> decide
  · have hparts : ∀ part ∈ written labels, part ≠ [] := by
      intro part hpart
      obtain ⟨label, hlabel, rfl⟩ := List.mem_map.mp hpart
      rw [ne_eq, escape_eq_nil_iff, String.toList_eq_nil_iff]
      exact (h label hlabel).nonempty
    obtain ⟨part, hpart, hlast⟩ := exists_getLast?_join ':' (written_ne_nil hne) hparts
    obtain ⟨label, hlabel, rfl⟩ := List.mem_map.mp hpart
    rw [render, List.getLast?_cons, hlast, getLast?_escape] at hc
    cases hget : label.toList.getLast? with
    | none =>
      rw [List.getLast?_eq_none_iff, String.toList_eq_nil_iff] at hget
      exact absurd hget (h label hlabel).nonempty
    | some d =>
      rw [hget] at hc
      cases hc
      exact (h label hlabel).back d (by rw [hget]; rfl)

/-- A clause is read back. -/
theorem parse?_render (hne : labels ≠ []) (h : ∀ label ∈ labels, Nameable label) :
    parse? (render rule labels) = some (.alternative rule labels) := by
  have hstar : ¬ render rule labels = ['*'] := by
    intro heq
    have hsign : rule.sign = '*' := (List.cons.inj heq).1
    cases rule <;> cases hsign
  have hsigned : signed (render rule labels) = (rule, join ':' (written labels)) := by
    rw [render, signed, LabelRule.ofSign?_sign]
  have hempty : labels.isEmpty = false := by
    cases labels with
    | nil => exact absurd rfl hne
    | cons label rest => rfl
  rw [parse?, trim_render hne h]
  dsimp only
  rw [if_neg hstar, hsigned]
  dsimp only
  rw [labelsOf_join hne h, hempty]
  rfl

lemma uncut_render (h : ∀ label ∈ labels, Nameable label) : Uncut '|' (render rule labels) := by
  have hjoin : Uncut '|' (join ':' (written labels)) :=
    uncut_join (by decide) (by decide) fun part => uncut_of_mem_written (.inr rfl) h
  refine hjoin.cons ?_ ?_ <;> cases rule <;> decide

end LabelClause

/-! ### Whole filters -/

namespace LabelFilter

variable {cs : List (LabelRule × List String)}

/-- The text of a list of clauses, with bars between them. -/
def render (cs : List (LabelRule × List String)) : String :=
  String.ofList (join '|' (cs.map fun c => LabelClause.render c.1 c.2))

lemma clauses_render (h : ∀ c ∈ cs, c.2 ≠ [] ∧ ∀ label ∈ c.2, Nameable label) :
    clauses (render cs) = cs.map fun c => .alternative c.1 c.2 := by
  rw [clauses, render, String.toList_ofList]
  by_cases hne : cs = []
  · subst hne
    decide +kernel
  · have hsplit : splitUnescaped '|' (join '|' (cs.map fun c => LabelClause.render c.1 c.2)) =
        cs.map fun c => LabelClause.render c.1 c.2 := by
      refine splitUnescaped_join (by decide) (by simpa using hne) fun part hpart => ?_
      obtain ⟨c, hc, rfl⟩ := List.mem_map.mp hpart
      exact LabelClause.uncut_render (h c hc).2
    rw [hsplit, List.filterMap_map, ← List.filterMap_eq_map]
    refine List.filterMap_congr fun c hc => ?_
    exact LabelClause.parse?_render (h c hc).1 (h c hc).2

lemma contains_wildcard_map (cs : List (LabelRule × List String)) :
    (cs.map fun c => LabelClause.alternative c.1 c.2).contains .wildcard = false := by
  simp

lemma filterMap_labelsFor? (cs : List (LabelRule × List String)) (rule : LabelRule) :
    (cs.map fun c => LabelClause.alternative c.1 c.2).filterMap (·.labelsFor? rule) =
      (cs.filter (·.1 = rule)).map Prod.snd := by
  induction cs with
  | nil => rfl
  | cons c cs ih =>
    rw [List.map_cons]
    by_cases h : c.1 = rule
    · have hlabels : (LabelClause.alternative c.1 c.2).labelsFor? rule = some c.2 := if_pos h
      rw [List.filterMap_cons_some hlabels, ih, List.filter_cons_of_pos (by simpa using h)]
      rfl
    · have hlabels : (LabelClause.alternative c.1 c.2).labelsFor? rule = Option.none := if_neg h
      rw [List.filterMap_cons_none hlabels, ih, List.filter_cons_of_neg (by simpa using h)]

lemma rule_ofClauses (cs : List (LabelRule × List String)) (rule : LabelRule) :
    (ofClauses (cs.map fun c => .alternative c.1 c.2)).rule rule =
      (cs.filter (·.1 = rule)).map Prod.snd := by
  rw [← filterMap_labelsFor?]
  cases rule with
  | allow =>
    dsimp only [ofClauses, LabelFilter.rule]
    rw [contains_wildcard_map, if_neg Bool.false_ne_true]
  | _ => rfl

/-- **Writing**: every list of clauses whose labels can be named has a text that is read as these
clauses. -/
theorem clauses_are_read_back (h : ∀ c ∈ cs, c.2 ≠ [] ∧ ∀ label ∈ c.2, Nameable label) :
    (∀ rule, (parse (render cs)).rule rule = (cs.filter (·.1 = rule)).map Prod.snd) ∧
      (parse (render cs)).wildcard = false := by
  rw [parse, clauses_render h]
  exact ⟨rule_ofClauses cs, contains_wildcard_map cs⟩

/-- Labels that look like signs, stars and separators, and backslashes that stand for themselves. -/
theorem clauses_are_read_back_lookalikes :
    let cs : List (LabelRule × List String) :=
      [(.allow, ["*", "-a"]), (.deny, [":x|", "\\\\y"]), (.allow, ["+\\n"])]
    (∀ c ∈ cs, c.2 ≠ [] ∧ ∀ label ∈ c.2, Nameable label) ∧
      render cs = "+*:-a|-\\:x\\|:\\\\y|++\\n" ∧
      (parse (render cs)).allow = [["*", "-a"], ["+\\n"]] ∧
      (parse (render cs)).deny = [[":x|", "\\\\y"]] ∧
      (parse (render cs)).wildcard = false := by
  intro cs
  have hnameable : ∀ c ∈ cs, c.2 ≠ [] ∧ ∀ label ∈ c.2, Nameable label := by decide +kernel
  obtain ⟨hrules, hwildcard⟩ := clauses_are_read_back hnameable
  exact ⟨hnameable, by decide +kernel, hrules .allow, hrules .deny, hwildcard⟩

end LabelFilter

end GraphWalk
