/-!
White space of a text: the characters with the Unicode property `White_Space`, and trimming.
-/

namespace GraphWalk.Text

/-- The code points with the property `White_Space`, in ascending order. -/
def blankCodes : List Nat :=
  [0x09, 0x0A, 0x0B, 0x0C, 0x0D, 0x20, 0x85, 0xA0, 0x1680,
   0x2000, 0x2001, 0x2002, 0x2003, 0x2004, 0x2005, 0x2006, 0x2007, 0x2008, 0x2009, 0x200A,
   0x2028, 0x2029, 0x202F, 0x205F, 0x3000]

def isBlank (c : Char) : Bool := blankCodes.contains c.toNat

/-- The text without the white space at its two ends. -/
def trim (cs : List Char) : List Char :=
  ((cs.dropWhile isBlank).reverse.dropWhile isBlank).reverse

theorem trim_eq_self {cs : List Char} (front : ∀ c ∈ cs.head?, isBlank c = false)
    (back : ∀ c ∈ cs.getLast?, isBlank c = false) : trim cs = cs := by
  have drop : ∀ l : List Char, (∀ c ∈ l.head?, isBlank c = false) → l.dropWhile isBlank = l := by
    intro l h
    cases l with
    | nil => rfl
    | cons c l => simp [h c (by simp)]
  rw [trim, drop cs front, drop cs.reverse (by simpa using back), List.reverse_reverse]

theorem isBlank_head?_dropWhile (cs : List Char) :
    ∀ c ∈ (cs.dropWhile isBlank).head?, isBlank c = false := by
  intro c hc
  have first := List.head?_dropWhile_not isBlank cs
  rw [Option.mem_def.mp hc] at first
  exact first

theorem trim_isPrefix (cs : List Char) : trim cs <+: cs.dropWhile isBlank := by
  rw [trim, ← List.reverse_suffix, List.reverse_reverse]
  exact List.dropWhile_suffix isBlank

theorem trim_isInfix (cs : List Char) : trim cs <:+: cs :=
  (trim_isPrefix cs).isInfix.trans (List.dropWhile_suffix isBlank).isInfix

theorem isBlank_head?_trim (cs : List Char) : ∀ c ∈ (trim cs).head?, isBlank c = false := by
  intro c hc
  obtain ⟨blanks, front⟩ := trim_isPrefix cs
  apply isBlank_head?_dropWhile cs c
  rw [← front, List.head?_append, Option.mem_def.mp hc]
  rfl

theorem isBlank_getLast?_trim (cs : List Char) : ∀ c ∈ (trim cs).getLast?, isBlank c = false := by
  rw [trim, List.getLast?_reverse]
  exact isBlank_head?_dropWhile _

@[simp] theorem trim_trim (cs : List Char) : trim (trim cs) = trim cs :=
  trim_eq_self (isBlank_head?_trim cs) (isBlank_getLast?_trim cs)

end GraphWalk.Text
