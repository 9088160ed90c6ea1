import GraphWalk.Filter.Label
import GraphWalk.Proofs.Text.Shielded

/-!
The labels of a filter as they are written.

A filter is cut at bars and a clause at colons, and what is left is trimmed before its backslashes
are taken out. The cuts read backslashes in pairs; taking them out looks one character ahead. They
agree on every text: what is taken out is the one backslash before each colon and bar that was not
cut at.
-/

namespace GraphWalk

open Text

namespace LabelClause

lemma signed_cons (c : Char) (rest : List Char) :
    signed (c :: rest) = match LabelRule.ofSign? c with
      | some rule => (rule, rest)
      | none => (.allow, c :: rest) := rfl

lemma ofSign?_backslash : LabelRule.ofSign? '\\' = none := by decide

lemma inside_signed (cs : List Char) : Inside (signed cs).2 cs := by
  cases cs with
  | nil => exact .refl []
  | cons c rest =>
    rw [signed_cons]
    cases hsign : LabelRule.ofSign? c with
    | none => exact .refl (c :: rest)
    | some rule =>
      refine ⟨[c], [], by simp, fun hlast => ?_⟩
      obtain rfl : c = '\\' := Option.some.inj hlast
      rw [ofSign?_backslash] at hsign
      cases hsign

/-- The labels of a clause as they are written. -/
def fragments (text : List Char) : List (List Char) :=
  (splitUnescaped ':' (signed (trim text)).2).map trim

variable {text fragment : List Char} {rule : LabelRule} {labels : List String} {label : String}

lemma inside_of_mem_fragments (h : fragment ∈ fragments text) : Inside fragment text := by
  obtain ⟨part, hpart, rfl⟩ := List.mem_map.mp h
  have hbody : Inside (signed (trim text)).2 text := (inside_signed _).trans (inside_trim text)
  exact (inside_trim part).trans ((inside_part (by decide) hpart).trans hbody)

lemma shielded_colon_of_mem_fragments (h : fragment ∈ fragments text) : Shielded ':' fragment := by
  obtain ⟨part, hpart, rfl⟩ := List.mem_map.mp h
  exact (inside_trim part).shielded (shielded_part (by decide) hpart)

lemma exists_fragment_of_parse? (h : parse? text = some (.alternative rule labels))
    (hlabel : label ∈ labels) : ∃ fragment ∈ fragments text, label.toList = unescape fragment := by
  unfold parse? at h
  dsimp only at h
  split_ifs at h
  · cases h
  · cases h
    obtain ⟨hmem, -⟩ := List.mem_filter.mp hlabel
    obtain ⟨part, hpart, rfl⟩ := List.mem_map.mp hmem
    exact ⟨trim part, List.mem_map_of_mem hpart, String.toList_ofList⟩

end LabelClause

namespace LabelFilter

variable {text : String} {fragment : List Char} {rule : LabelRule} {labels : List String}
  {label : String}

/-- The labels of a filter as they are written. -/
def fragments (text : String) : List (List Char) :=
  (splitUnescaped '|' text.toList).flatMap LabelClause.fragments

lemma shielded_of_mem_fragments (h : fragment ∈ fragments text) :
    Shielded ':' fragment ∧ Shielded '|' fragment := by
  obtain ⟨clause, hclause, hfragment⟩ := List.mem_flatMap.mp h
  have hbar : Shielded '|' clause := shielded_part (by decide) hclause
  exact ⟨LabelClause.shielded_colon_of_mem_fragments hfragment,
    (LabelClause.inside_of_mem_fragments hfragment).shielded hbar⟩

lemma exists_clause_of_mem_rule (h : labels ∈ (parse text).rule rule) :
    .alternative rule labels ∈ clauses text := by
  have hmem : labels ∈ (clauses text).filterMap (·.labelsFor? rule) := by
    cases rule with
    | allow =>
      dsimp only [parse, ofClauses, LabelFilter.rule] at h
      split_ifs at h
      · cases h
      · exact h
    | _ => exact h
  obtain ⟨clause, hclause, hlabels⟩ := List.mem_filterMap.mp hmem
  cases clause with
  | wildcard => cases hlabels
  | alternative r ls =>
    unfold LabelClause.labelsFor? at hlabels
    dsimp only at hlabels
    split_ifs at hlabels with hr
    cases hlabels
    rwa [← hr]

lemma exists_fragment_of_mem_rule (h : labels ∈ (parse text).rule rule) (hlabel : label ∈ labels) :
    ∃ fragment ∈ fragments text, label.toList = unescape fragment := by
  obtain ⟨clause, hclause, hparse⟩ := List.mem_filterMap.mp (exists_clause_of_mem_rule h)
  obtain ⟨fragment, hfragment, heq⟩ := LabelClause.exists_fragment_of_parse? hparse hlabel
  exact ⟨fragment, List.mem_flatMap.mpr ⟨clause, hclause, hfragment⟩, heq⟩

/-- **Backslashes**: a text that is cut can be joined again, and its parts are not cut any further;
in every label as it is written each colon and bar has a backslash right before it, and that is what
is taken out when the label is read. -/
theorem backslashes_are_read_alike (text : String) :
    (∀ sep, sep = '|' ∨ sep = ':' →
      join sep (splitUnescaped sep text.toList) = text.toList ∧
        ∀ part ∈ splitUnescaped sep text.toList, splitUnescaped sep part = [part]) ∧
      (∀ fragment ∈ fragments text, Shielded ':' fragment ∧ Shielded '|' fragment ∧
        escape (unescape fragment) = fragment) ∧
      ∀ rule, ∀ labels ∈ (parse text).rule rule, ∀ label ∈ labels,
        ∃ fragment ∈ fragments text, label.toList = unescape fragment := by
  refine ⟨fun sep _ => ?_, fun fragment hfragment => ?_, fun rule labels hlabels label hlabel => ?_⟩
  · exact ⟨join_splitUnescaped sep text.toList, fun part hpart => splitUnescaped_part hpart⟩
  · obtain ⟨hcolon, hbar⟩ := shielded_of_mem_fragments hfragment
    exact ⟨hcolon, hbar, escape_unescape hcolon hbar⟩
  · exact exists_fragment_of_mem_rule hlabels hlabel

/-- Three backslashes before a bar, of which two stand for themselves, and one at the end of a
clause that takes in the space behind it. -/
theorem backslashes_are_read_alike_tripled :
    let text := "- a\\:b : \\\\\\|c | d\\ "
    splitUnescaped '|' text.toList = ["- a\\:b : \\\\\\|c ".toList, " d\\ ".toList] ∧
    join '|' (splitUnescaped '|' text.toList) = text.toList ∧
    fragments text = ["a\\:b".toList, "\\\\\\|c".toList, "d\\".toList] ∧
    escape (unescape "\\\\\\|c".toList) = "\\\\\\|c".toList ∧
    unescape "\\\\\\|c".toList = "\\\\|c".toList ∧
    ["a:b", "\\\\|c"] ∈ (parse text).rule .deny := by
  intro text
  have hfragments : fragments text = ["a\\:b".toList, "\\\\\\|c".toList, "d\\".toList] := by
    decide +kernel
  obtain ⟨hcut, hread, -⟩ := backslashes_are_read_alike text
  have hmem : "\\\\\\|c".toList ∈ fragments text := by
    rw [hfragments]
    decide
  exact ⟨by decide +kernel, (hcut '|' (.inl rfl)).1, hfragments, (hread _ hmem).2.2,
    by decide +kernel, by decide +kernel⟩

end LabelFilter

end GraphWalk
