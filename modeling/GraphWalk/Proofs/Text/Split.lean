import GraphWalk.Text.Blank
import GraphWalk.Text.Split
import Mathlib.Algebra.Group.Nat.Even
import Mathlib.Data.List.DropRight
import Mathlib.Data.List.Infix
import Mathlib.Tactic.Common

/-!
Texts that are joined by a separator and cut again.

A part comes back whole if no cut falls into it and if its backslashes take in nothing behind it.
Both hold of a text in which a backslash was written before every colon and bar, as long as the
backslashes that were there before are not in the way of the new ones.

A text that is cut somewhere itself is cut in the same places when a separator and more text follow,
as long as the backslashes at its end come in pairs.
-/

namespace GraphWalk.Text

variable {sep c : Char} {cs ds : List Char} {parts : List (List Char)}

/-! ### Parts that come back whole -/

/-- Whatever follows the text is cut as if the text were not there. -/
def Uncut (sep : Char) (cs : List Char) : Prop :=
  ∀ rest, splitUnescaped sep (cs ++ rest) = (splitUnescaped sep rest).modifyHead (cs ++ ·)

lemma uncut_nil (sep : Char) : Uncut sep [] := by
  intro rest
  rw [List.nil_append]
  cases splitUnescaped sep rest <;> rfl

lemma Uncut.append (h : Uncut sep cs) (h' : Uncut sep ds) : Uncut sep (cs ++ ds) := by
  intro rest
  rw [List.append_assoc, h, h', List.modifyHead_modifyHead]
  congr 1
  funext part
  exact (List.append_assoc cs ds part).symm

lemma uncut_escaped (sep c : Char) : Uncut sep ['\\', c] := by
  intro rest
  rw [List.cons_append, List.cons_append, List.nil_append, splitUnescaped]
  rfl

lemma splitUnescaped_cons (hslash : c ≠ '\\') (rest : List Char) :
    splitUnescaped sep (c :: rest) =
      if c = sep then [] :: splitUnescaped sep rest
      else (splitUnescaped sep rest).modifyHead (c :: ·) := by
  rw [splitUnescaped]
  rintro d rest' rfl
  exact absurd rfl hslash

lemma uncut_singleton (hslash : c ≠ '\\') (hsep : c ≠ sep) : Uncut sep [c] := by
  intro rest
  rw [List.singleton_append, splitUnescaped_cons hslash, if_neg hsep]
  rfl

lemma Uncut.cons (h : Uncut sep cs) (hslash : c ≠ '\\') (hsep : c ≠ sep) : Uncut sep (c :: cs) :=
  (uncut_singleton hslash hsep).append h

lemma Uncut.splitUnescaped_eq (h : Uncut sep cs) : splitUnescaped sep cs = [cs] := by
  have hcut := h []
  rw [List.append_nil] at hcut
  rw [hcut]
  simp [splitUnescaped]

lemma Uncut.splitUnescaped_append_sep (h : Uncut sep cs) (hsep : sep ≠ '\\') (rest : List Char) :
    splitUnescaped sep (cs ++ sep :: rest) = cs :: splitUnescaped sep rest := by
  rw [h, splitUnescaped_cons hsep, if_pos rfl]
  simp

lemma join_cons (sep : Char) (cs : List Char) (hne : parts ≠ []) :
    join sep (cs :: parts) = cs ++ sep :: join sep parts := by
  cases parts with
  | nil => exact absurd rfl hne
  | cons ds rest => simp [join, List.intercalate_cons_cons]

lemma join_singleton (sep : Char) (cs : List Char) : join sep [cs] = cs := by
  simp [join]

/-- Cutting undoes joining. -/
theorem splitUnescaped_join (hsep : sep ≠ '\\') (hne : parts ≠ [])
    (h : ∀ part ∈ parts, Uncut sep part) : splitUnescaped sep (join sep parts) = parts := by
  induction parts with
  | nil => exact absurd rfl hne
  | cons part rest ih =>
    have hpart : Uncut sep part := h part List.mem_cons_self
    have hrest : ∀ part ∈ rest, Uncut sep part := fun p hp => h p (List.mem_cons_of_mem _ hp)
    by_cases hnil : rest = []
    · rw [hnil, join_singleton, hpart.splitUnescaped_eq]
    · rw [join_cons sep part hnil, hpart.splitUnescaped_append_sep hsep, ih hnil hrest]

/-- Parts that were joined by one separator are not cut at another one. -/
lemma uncut_join {sep' : Char} (hslash : sep' ≠ '\\') (hsep : sep' ≠ sep)
    (h : ∀ part ∈ parts, Uncut sep part) : Uncut sep (join sep' parts) := by
  induction parts with
  | nil => exact uncut_nil sep
  | cons part rest ih =>
    have hpart : Uncut sep part := h part List.mem_cons_self
    have hrest : ∀ part ∈ rest, Uncut sep part := fun p hp => h p (List.mem_cons_of_mem _ hp)
    by_cases hnil : rest = []
    · rw [hnil, join_singleton]
      exact hpart
    · rw [join_cons sep' part hnil]
      exact hpart.append ((ih hrest).cons hslash hsep)

lemma exists_getLast?_join (sep : Char) (hne : parts ≠ []) (h : ∀ part ∈ parts, part ≠ []) :
    ∃ part ∈ parts, (join sep parts).getLast? = part.getLast? := by
  induction parts with
  | nil => exact absurd rfl hne
  | cons part rest ih =>
    by_cases hnil : rest = []
    · exact ⟨part, List.mem_cons_self, by rw [hnil, join_singleton]⟩
    · obtain ⟨last, hmem, hlast⟩ := ih hnil fun p hp => h p (List.mem_cons_of_mem _ hp)
      have hne' : last ≠ [] := h last (List.mem_cons_of_mem _ hmem)
      refine ⟨last, List.mem_cons_of_mem _ hmem, ?_⟩
      rw [join_cons sep part hnil, List.getLast?_append, List.getLast?_cons, hlast]
      cases hget : last.getLast? with
      | none => exact absurd (List.getLast?_eq_none_iff.mp hget) hne'
      | some c => rfl

/-! ### Backslashes before colons and bars -/

/-- Writes a backslash before every colon and bar. -/
def escape : List Char → List Char
  | [] => []
  | c :: rest => if c = ':' ∨ c = '|' then '\\' :: c :: escape rest else c :: escape rest

lemma escape_cons_of_special (h : c = ':' ∨ c = '|') (cs : List Char) :
    escape (c :: cs) = ['\\', c] ++ escape cs := by
  rw [escape, if_pos h]
  rfl

lemma escape_cons_of_plain (h : ¬ (c = ':' ∨ c = '|')) (cs : List Char) :
    escape (c :: cs) = c :: escape cs := by
  rw [escape, if_neg h]

lemma head?_escape_ne (cs : List Char) :
    (escape cs).head? ≠ some ':' ∧ (escape cs).head? ≠ some '|' := by
  cases cs with
  | nil => simp [escape]
  | cons c cs =>
    by_cases h : c = ':' ∨ c = '|'
    · simp [escape_cons_of_special h]
    · rw [escape_cons_of_plain h]
      simpa [not_or] using h

lemma unescape_cons (h : c = '\\' → cs.head? ≠ some ':' ∧ cs.head? ≠ some '|') :
    unescape (c :: cs) = c :: unescape cs := by
  rw [unescape]
  · rintro rest rfl rfl
    exact (h rfl).1 rfl
  · rintro rest rfl rfl
    exact (h rfl).2 rfl

/-- Taking backslashes out undoes writing them, whatever the text. -/
theorem unescape_escape (cs : List Char) : unescape (escape cs) = cs := by
  induction cs with
  | nil => rfl
  | cons c cs ih =>
    by_cases h : c = ':' ∨ c = '|'
    · rw [escape_cons_of_special h]
      rcases h with rfl | rfl <;> simp [unescape, ih]
    · rw [escape_cons_of_plain h, unescape_cons fun _ => head?_escape_ne cs, ih]

lemma escape_eq_nil_iff : escape cs = [] ↔ cs = [] := by
  cases cs with
  | nil => simp [escape]
  | cons c cs =>
    rw [escape]
    split <;> simp

lemma getLast?_escape (cs : List Char) : (escape cs).getLast? = cs.getLast? := by
  induction cs with
  | nil => rfl
  | cons c cs ih =>
    by_cases h : c = ':' ∨ c = '|'
    · rw [escape_cons_of_special h, List.cons_append, List.singleton_append,
        List.getLast?_cons_cons, List.getLast?_cons, List.getLast?_cons, ih]
    · rw [escape_cons_of_plain h, List.getLast?_cons, List.getLast?_cons, ih]

/-- Every backslash has a character behind it, and that is no colon and no bar. -/
structure FreeBackslashes (cs : List Char) : Prop where
  last : cs.getLast? ≠ some '\\'
  colon : ¬ ['\\', ':'] <:+: cs
  bar : ¬ ['\\', '|'] <:+: cs

instance (cs : List Char) : Decidable (FreeBackslashes cs) :=
  decidable_of_iff (cs.getLast? ≠ some '\\' ∧ ¬ ['\\', ':'] <:+: cs ∧ ¬ ['\\', '|'] <:+: cs)
    ⟨fun ⟨hlast, hcolon, hbar⟩ => ⟨hlast, hcolon, hbar⟩, fun h => ⟨h.last, h.colon, h.bar⟩⟩

lemma FreeBackslashes.tail (h : FreeBackslashes (c :: cs)) : FreeBackslashes cs where
  last := by
    cases cs with
    | nil => simp
    | cons d ds =>
      rw [← List.getLast?_cons_cons (a := c)]
      exact h.last
  colon := fun hin => h.colon (List.infix_cons hin)
  bar := fun hin => h.bar (List.infix_cons hin)

/-- A text whose backslashes are free is not cut once its colons and bars have backslashes. -/
theorem uncut_escape (hsep : sep = ':' ∨ sep = '|') (h : FreeBackslashes cs) :
    Uncut sep (escape cs) := by
  -- backslashes are read in pairs with what follows, so the induction goes along the cutting
  induction cs using splitUnescaped.induct sep with
  | case1 => exact uncut_nil sep
  | case2 c rest ih =>
    have hplain : ¬ (c = ':' ∨ c = '|') := by
      rintro (rfl | rfl)
      · exact h.colon ⟨[], rest, rfl⟩
      · exact h.bar ⟨[], rest, rfl⟩
    rw [escape_cons_of_plain (by decide), escape_cons_of_plain hplain]
    exact (uncut_escaped sep c).append (ih h.tail.tail)
  | case3 rest hslash ih =>
    rw [escape_cons_of_special hsep]
    exact (uncut_escaped sep sep).append (ih h.tail)
  | case4 c rest hslash hne ih =>
    have hc : c ≠ '\\' := by
      rintro rfl
      cases rest with
      | nil => exact h.last rfl
      | cons d rest => exact hslash d rest rfl rfl
    by_cases hspecial : c = ':' ∨ c = '|'
    · rw [escape_cons_of_special hspecial]
      exact (uncut_escaped sep c).append (ih h.tail)
    · rw [escape_cons_of_plain hspecial]
      exact (ih h.tail).cons hc hne

/-! ### Cuts at every separator -/

lemma split_append (h : sep ∉ cs) (rest : List Char) :
    split sep (cs ++ rest) = (split sep rest).modifyHead (cs ++ ·) := by
  induction cs with
  | nil =>
    rw [List.nil_append]
    cases split sep rest <;> rfl
  | cons c cs ih =>
    rw [List.mem_cons, not_or] at h
    rw [List.cons_append, split, if_neg (Ne.symm h.1), ih h.2, List.modifyHead_modifyHead]
    rfl

lemma split_eq_singleton (h : sep ∉ cs) : split sep cs = [cs] := by
  have hcut := split_append h []
  rw [List.append_nil] at hcut
  rw [hcut]
  simp [split]

/-- Cutting at every separator undoes joining if no part holds the separator. -/
theorem split_join (hne : parts ≠ []) (h : ∀ part ∈ parts, sep ∉ part) :
    split sep (join sep parts) = parts := by
  induction parts with
  | nil => exact absurd rfl hne
  | cons part rest ih =>
    have hpart : sep ∉ part := h part List.mem_cons_self
    have hrest : ∀ part ∈ rest, sep ∉ part := fun p hp => h p (List.mem_cons_of_mem _ hp)
    by_cases hnil : rest = []
    · rw [hnil, join_singleton, split_eq_singleton hpart]
    · rw [join_cons sep part hnil, split_append hpart, split, if_pos rfl, ih hnil hrest]
      simp

lemma not_mem_of_mem_split (h : ds ∈ split sep cs) : sep ∉ ds := by
  induction cs generalizing ds with
  | nil =>
    rw [split, List.mem_singleton] at h
    simp [h]
  | cons c cs ih =>
    rw [split] at h
    split at h
    · rcases List.mem_cons.mp h with rfl | h
      · simp
      · exact ih h
    · next hne =>
      obtain ⟨part, rest, hparts⟩ := List.exists_cons_of_ne_nil (split_ne_nil sep cs)
      rw [hparts, List.modifyHead_cons] at h
      rcases List.mem_cons.mp h with rfl | h
      · have hpart : sep ∉ part := ih (hparts ▸ List.mem_cons_self)
        simpa [not_or, Ne.symm hne] using hpart
      · exact ih (hparts ▸ List.mem_cons_of_mem _ h)

/-! ### Texts after one another -/

/-- How many backslashes the text ends with. -/
def finalBackslashes (cs : List Char) : ℕ := (cs.rtakeWhile (· = '\\')).length

lemma finalBackslashes_le_length (cs : List Char) : finalBackslashes cs ≤ cs.length :=
  (List.rtakeWhile_suffix _ cs).length_le

lemma finalBackslashes_cons (c : Char) (cs : List Char) :
    finalBackslashes (c :: cs) =
      if c = '\\' ∧ finalBackslashes cs = cs.length then cs.length + 1
      else finalBackslashes cs := by
  unfold finalBackslashes List.rtakeWhile
  rw [List.reverse_cons, List.takeWhile_append]
  simp only [List.length_reverse]
  by_cases hc : c = '\\' <;> split_ifs <;> simp_all

/-- A backslash and what it takes in leave the others in their pairs. -/
lemma even_finalBackslashes_escaped (c : Char) (cs : List Char) :
    Even (finalBackslashes ('\\' :: c :: cs)) ↔ Even (finalBackslashes cs) := by
  have hle := finalBackslashes_le_length cs
  rw [finalBackslashes_cons, finalBackslashes_cons c cs, List.length_cons]
  by_cases hall : c = '\\' ∧ finalBackslashes cs = cs.length
  · rw [if_pos hall, if_pos ⟨rfl, rfl⟩, hall.2, add_assoc, Nat.even_add,
      iff_true_right (by decide : Even (1 + 1))]
  · rw [if_neg hall, if_neg fun h => by omega]

lemma modifyHead_append {f : List Char → List Char} (hne : parts ≠ []) (more : List (List Char)) :
    (parts ++ more).modifyHead f = parts.modifyHead f ++ more := by
  cases parts with
  | nil => exact absurd rfl hne
  | cons part rest => rfl

/-- Every text is cut by itself if no backslash at the end of the first takes in the separator. -/
theorem splitUnescaped_append_cons (hsep : sep ≠ '\\') (h : Even (finalBackslashes cs))
    (rest : List Char) :
    splitUnescaped sep (cs ++ sep :: rest) = splitUnescaped sep cs ++ splitUnescaped sep rest := by
  induction cs using splitUnescaped.induct sep with
  | case1 =>
    rw [List.nil_append, splitUnescaped_cons hsep, if_pos rfl]
    rfl
  | case2 c cs ih =>
    rw [even_finalBackslashes_escaped] at h
    rw [List.cons_append, List.cons_append, splitUnescaped, splitUnescaped, ih h,
      modifyHead_append (splitUnescaped_ne_nil sep cs)]
  | case3 cs hslash ih =>
    rw [finalBackslashes_cons, if_neg fun h => hsep h.1] at h
    rw [List.cons_append, splitUnescaped_cons hsep, if_pos rfl, splitUnescaped_cons hsep,
      if_pos rfl, ih h, List.cons_append]
  | case4 c cs hslash hne ih =>
    have hc : c ≠ '\\' := by
      rintro rfl
      cases cs with
      | nil => exact absurd h (by decide)
      | cons d cs => exact hslash d cs rfl rfl
    rw [finalBackslashes_cons, if_neg fun h => hc h.1] at h
    rw [List.cons_append, splitUnescaped_cons hc, if_neg hne, splitUnescaped_cons hc, if_neg hne,
      ih h, modifyHead_append (splitUnescaped_ne_nil sep cs)]

end GraphWalk.Text
