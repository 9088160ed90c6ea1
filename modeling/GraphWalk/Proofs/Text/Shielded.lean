import GraphWalk.Proofs.Text.Split

/-!
Backslashes in the parts of a text that is cut.

A cut passes over a separator only where a backslash takes it in, so every separator that is left in
a part stands right behind a backslash. Taking backslashes out looks for no more than that, and
knows nothing of the pairs in which the cut reads them; so it agrees with the cut on every text
whose separators are shielded in this way. What is cut out of such a text, or trimmed, does not
begin right behind a backslash, and is such a text again.
-/

namespace GraphWalk.Text

variable {sep c : Char} {cs ds es part : List Char} {parts : List (List Char)}

/-! ### Parts of a part -/

lemma of_mem_modifyHead {f : List Char → List Char} (h : part ∈ parts.modifyHead f) :
    (∃ head ∈ parts, part = f head) ∨ part ∈ parts := by
  cases parts with
  | nil => exact .inr h
  | cons head rest =>
    rw [List.modifyHead_cons, List.mem_cons] at h
    rcases h with rfl | h
    · exact .inl ⟨head, List.mem_cons_self, rfl⟩
    · exact .inr (List.mem_cons_of_mem _ h)

/-- A part is not cut again. -/
theorem splitUnescaped_part (h : part ∈ splitUnescaped sep cs) :
    splitUnescaped sep part = [part] := by
  induction cs using splitUnescaped.induct sep generalizing part with
  | case1 =>
    obtain rfl := List.mem_singleton.mp h
    rfl
  | case2 c rest ih =>
    rw [splitUnescaped] at h
    rcases of_mem_modifyHead h with ⟨head, hhead, rfl⟩ | h
    · rw [splitUnescaped, ih hhead, List.modifyHead_cons]
    · exact ih h
  | case3 rest hslash ih =>
    rw [splitUnescaped, if_pos rfl] at h
    · rcases List.mem_cons.mp h with rfl | h
      · rfl
      · exact ih h
    · exact hslash
  | case4 c rest hslash hne ih =>
    rw [splitUnescaped, if_neg hne] at h
    · rcases of_mem_modifyHead h with ⟨head, hhead, rfl⟩ | h
      · by_cases hc : c = '\\'
        · -- a backslash that takes in nothing is the end of the text
          obtain rfl : rest = [] := by
            cases rest with
            | nil => rfl
            | cons d rest => exact (hslash d rest hc rfl).elim
          obtain rfl := List.mem_singleton.mp hhead
          simp [splitUnescaped, hne]
        · rw [splitUnescaped_cons hc, if_neg hne, ih hhead, List.modifyHead_cons]
      · exact ih h
    · exact hslash

/-! ### Separators behind backslashes -/

/-- Every `sep` in the text has a backslash right before it. -/
def Shielded (sep : Char) (cs : List Char) : Prop :=
  ∀ before after, cs = before ++ sep :: after → before.getLast? = some '\\'

lemma shielded_nil : Shielded sep [] := by
  intro before after h
  simp at h

lemma Shielded.head?_ne (h : Shielded sep cs) : cs.head? ≠ some sep := by
  intro hhead
  obtain ⟨rest, rfl⟩ := List.head?_eq_some_iff.mp hhead
  have hnone := h [] rest rfl
  cases hnone

lemma Shielded.eq_backslash (h : Shielded sep (c :: cs)) (hhead : cs.head? = some sep) :
    c = '\\' := by
  obtain ⟨rest, rfl⟩ := List.head?_eq_some_iff.mp hhead
  exact Option.some.inj (h [c] rest rfl)

lemma Shielded.cons (h : Shielded sep cs) (hne : c ≠ sep) : Shielded sep (c :: cs) := by
  intro before after heq
  cases before with
  | nil => exact absurd (List.cons.inj heq).1 hne
  | cons d before =>
    have hlast := h before after (List.cons.inj heq).2
    rw [List.getLast?_cons, hlast]
    rfl

lemma Shielded.escaped (h : Shielded sep cs) (hsep : sep ≠ '\\') (c : Char) :
    Shielded sep ('\\' :: c :: cs) := by
  intro before after heq
  rcases before with _ | ⟨d, _ | ⟨e, before⟩⟩
  · exact absurd (List.cons.inj heq).1.symm hsep
  · rw [← (List.cons.inj heq).1]
    rfl
  · have hlast := h before after (List.cons.inj (List.cons.inj heq).2).2
    rw [List.getLast?_cons_cons, List.getLast?_cons, hlast]
    rfl

/-- Behind a backslash a text is cut nowhere else. -/
lemma Shielded.tail (h : Shielded sep (c :: cs)) (hhead : cs.head? ≠ some sep) :
    Shielded sep cs := by
  intro before after heq
  have hlast := h (c :: before) after (by rw [heq]; rfl)
  cases before with
  | nil => exact absurd (by rw [heq]; rfl) hhead
  | cons d before => rwa [List.getLast?_cons_cons] at hlast

/-- A cut leaves no separator but those behind backslashes. -/
theorem shielded_part (hsep : sep ≠ '\\') (h : part ∈ splitUnescaped sep cs) :
    Shielded sep part := by
  induction cs using splitUnescaped.induct sep generalizing part with
  | case1 =>
    obtain rfl := List.mem_singleton.mp h
    exact shielded_nil
  | case2 c rest ih =>
    rw [splitUnescaped] at h
    rcases of_mem_modifyHead h with ⟨head, hhead, rfl⟩ | h
    · exact (ih hhead).escaped hsep c
    · exact ih h
  | case3 rest hslash ih =>
    rw [splitUnescaped_cons hsep, if_pos rfl] at h
    rcases List.mem_cons.mp h with rfl | h
    · exact shielded_nil
    · exact ih h
  | case4 c rest hslash hne ih =>
    rw [splitUnescaped, if_neg hne] at h
    · rcases of_mem_modifyHead h with ⟨head, hhead, rfl⟩ | h
      · exact (ih hhead).cons hne
      · exact ih h
    · exact hslash

/-! ### Stretches of a text -/

/-- The first text is a stretch of the second that does not begin right behind a backslash. -/
def Inside (cs ds : List Char) : Prop :=
  ∃ before after, ds = before ++ cs ++ after ∧ before.getLast? ≠ some '\\'

lemma Inside.refl (cs : List Char) : Inside cs cs := ⟨[], [], by simp, by simp⟩

lemma Inside.trans (h : Inside cs ds) (h' : Inside ds es) : Inside cs es := by
  obtain ⟨before, after, rfl, hlast⟩ := h
  obtain ⟨before', after', rfl, hlast'⟩ := h'
  refine ⟨before' ++ before, after ++ after', by simp, ?_⟩
  rw [List.getLast?_append]
  cases hget : before.getLast? with
  | none => exact hlast'
  | some d => rwa [hget] at hlast

lemma Inside.shielded (h : Inside cs ds) (hds : Shielded sep ds) : Shielded sep cs := by
  obtain ⟨before, after, rfl, hbefore⟩ := h
  intro front back heq
  have hlast := hds (before ++ front) (back ++ after) (by rw [heq]; simp)
  rw [List.getLast?_append] at hlast
  cases hget : front.getLast? with
  | none =>
    rw [hget] at hlast
    exact absurd hlast hbefore
  | some d =>
    rw [hget] at hlast
    exact hlast

lemma inside_trim (cs : List Char) : Inside (trim cs) cs := by
  obtain ⟨after, hafter⟩ := trim_isPrefix cs
  refine ⟨cs.takeWhile isBlank, after, ?_, ?_⟩
  · rw [List.append_assoc, hafter, List.takeWhile_append_dropWhile]
  · intro hlast
    have hblank := List.mem_takeWhile_imp (List.mem_of_getLast? hlast)
    exact absurd hblank (by decide)

lemma inside_join (hsep : sep ≠ '\\') (h : part ∈ parts) : Inside part (join sep parts) := by
  induction parts with
  | nil => cases h
  | cons head rest ih =>
    by_cases hnil : rest = []
    · subst hnil
      rw [join_singleton, List.mem_singleton.mp h]
      exact .refl head
    · rw [join_cons sep head hnil]
      rcases List.mem_cons.mp h with rfl | h
      · exact ⟨[], sep :: join sep rest, rfl, by simp⟩
      · refine (ih h).trans ⟨head ++ [sep], [], by simp, ?_⟩
        rw [List.getLast?_concat]
        exact fun hslash => hsep (Option.some.inj hslash)

lemma inside_part (hsep : sep ≠ '\\') (h : part ∈ splitUnescaped sep cs) : Inside part cs := by
  have hinside := inside_join hsep h
  rwa [join_splitUnescaped] at hinside

/-! ### Taking backslashes out -/

/-- Where every colon and bar has a backslash, taking backslashes out takes these and no others. -/
theorem escape_unescape (hcolon : Shielded ':' cs) (hbar : Shielded '|' cs) :
    escape (unescape cs) = cs := by
  induction cs using unescape.induct with
  | case1 => rfl
  | case2 rest ih =>
    have hrest : Inside rest ('\\' :: ':' :: rest) := ⟨['\\', ':'], [], by simp, by decide⟩
    calc escape (unescape ('\\' :: ':' :: rest))
        = '\\' :: ':' :: escape (unescape rest) := by
          rw [unescape, escape_cons_of_special (.inl rfl)]
          rfl
      _ = '\\' :: ':' :: rest := by rw [ih (hrest.shielded hcolon) (hrest.shielded hbar)]
  | case3 rest ih =>
    have hrest : Inside rest ('\\' :: '|' :: rest) := ⟨['\\', '|'], [], by simp, by decide⟩
    calc escape (unescape ('\\' :: '|' :: rest))
        = '\\' :: '|' :: escape (unescape rest) := by
          rw [unescape, escape_cons_of_special (.inr rfl)]
          rfl
      _ = '\\' :: '|' :: rest := by rw [ih (hrest.shielded hcolon) (hrest.shielded hbar)]
  | case4 c rest hnocolon hnobar ih =>
    have hplain : ¬ (c = ':' ∨ c = '|') := by
      rintro (rfl | rfl)
      · exact hcolon.head?_ne rfl
      · exact hbar.head?_ne rfl
    -- a backslash before a colon or a bar would have been taken out
    have hheadcolon : rest.head? ≠ some ':' := by
      intro hhead
      obtain ⟨rest', hrest⟩ := List.head?_eq_some_iff.mp hhead
      exact hnocolon rest' (hcolon.eq_backslash hhead) hrest
    have hheadbar : rest.head? ≠ some '|' := by
      intro hhead
      obtain ⟨rest', hrest⟩ := List.head?_eq_some_iff.mp hhead
      exact hnobar rest' (hbar.eq_backslash hhead) hrest
    calc escape (unescape (c :: rest))
        = c :: escape (unescape rest) := by
          rw [unescape_cons fun _ => ⟨hheadcolon, hheadbar⟩, escape_cons_of_plain hplain]
      _ = c :: rest := by rw [ih (hcolon.tail hheadcolon) (hbar.tail hheadbar)]

end GraphWalk.Text
