/-!
Cutting a text at a separator, with and without regard to backslashes.
-/

namespace GraphWalk.Text

def split (sep : Char) : List Char → List (List Char)
  | [] => [[]]
  | c :: rest => if c = sep then [] :: split sep rest else (split sep rest).modifyHead (c :: ·)

/-- Cuts at every separator that no backslash takes in. A backslash takes in the character after
it, and both stay in the part. -/
def splitUnescaped (sep : Char) : List Char → List (List Char)
  | [] => [[]]
  | '\\' :: c :: rest => (splitUnescaped sep rest).modifyHead ('\\' :: c :: ·)
  | c :: rest =>
    if c = sep then [] :: splitUnescaped sep rest
    else (splitUnescaped sep rest).modifyHead (c :: ·)

/-- The inverse of cutting. -/
def join (sep : Char) (parts : List (List Char)) : List Char := List.intercalate [sep] parts

/-- Drops the backslash before a colon or a bar; every other backslash stands for itself. -/
def unescape : List Char → List Char
  | [] => []
  | '\\' :: ':' :: rest => ':' :: unescape rest
  | '\\' :: '|' :: rest => '|' :: unescape rest
  | c :: rest => c :: unescape rest

theorem split_ne_nil (sep : Char) (cs : List Char) : split sep cs ≠ [] := by
  cases cs with
  | nil => simp [split]
  | cons c rest =>
    rw [split]
    split
    · simp
    · cases h : split sep rest with
      | nil => exact absurd h (split_ne_nil sep rest)
      | cons => simp

theorem splitUnescaped_ne_nil (sep : Char) (cs : List Char) : splitUnescaped sep cs ≠ [] := by
  fun_induction splitUnescaped sep cs with
  | case1 => simp
  | case2 c rest ih => simpa [List.modifyHead_eq_nil_iff] using ih
  | case3 => simp
  | case4 c rest _ _ ih => simpa [List.modifyHead_eq_nil_iff] using ih

theorem join_modifyHead_cons (sep c : Char) {parts : List (List Char)} (h : parts ≠ []) :
    join sep (parts.modifyHead (c :: ·)) = c :: join sep parts := by
  cases parts with
  | nil => exact absurd rfl h
  | cons part rest => cases rest <;> simp [join, List.intercalate_cons_cons]

theorem join_nil_cons (sep : Char) {parts : List (List Char)} (h : parts ≠ []) :
    join sep ([] :: parts) = sep :: join sep parts := by
  cases parts with
  | nil => exact absurd rfl h
  | cons part rest => simp [join, List.intercalate_cons_cons]

theorem join_splitUnescaped (sep : Char) (cs : List Char) :
    join sep (splitUnescaped sep cs) = cs := by
  fun_induction splitUnescaped sep cs with
  | case1 => rfl
  | case2 c rest ih =>
    have ne := splitUnescaped_ne_nil sep rest
    have two : (splitUnescaped sep rest).modifyHead ('\\' :: c :: ·) =
        ((splitUnescaped sep rest).modifyHead (c :: ·)).modifyHead ('\\' :: ·) := by
      cases splitUnescaped sep rest <;> rfl
    rw [two, join_modifyHead_cons sep '\\' (by simpa [List.modifyHead_eq_nil_iff] using ne),
      join_modifyHead_cons sep c ne, ih]
  | case3 rest _ ih => rw [join_nil_cons sep (splitUnescaped_ne_nil sep rest), ih]
  | case4 c rest _ _ ih => rw [join_modifyHead_cons sep c (splitUnescaped_ne_nil sep rest), ih]

example : splitUnescaped '|' "a\\|b|c".toList = ["a\\|b".toList, "c".toList] := by decide

example : splitUnescaped '|' "a\\\\|b".toList = ["a\\\\".toList, "b".toList] := by decide

end GraphWalk.Text
