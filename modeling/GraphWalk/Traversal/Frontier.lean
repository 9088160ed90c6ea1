import GraphWalk.Traversal.Config

/-!
The branches that wait to be visited, first come first: a list from the front and one from the back.
-/

namespace GraphWalk

structure Frontier where
  front : List Nat := []
  back : List Nat := []
deriving Inhabited

namespace Frontier

/-- The waiting branches, the next one first. -/
def toList (f : Frontier) : List Nat := f.front ++ f.back.reverse

def isEmpty (f : Frontier) : Bool := f.front.isEmpty && f.back.isEmpty

/-- Takes the next branch. -/
def pop? (f : Frontier) : Option (Nat × Frontier) :=
  match f.front with
  | i :: front => some (i, ⟨front, f.back⟩)
  | [] =>
    match f.back.reverse with
    | i :: front => some (i, ⟨front, []⟩)
    | [] => none

/-- Adds branches behind all that wait if breadth comes first, before them if depth does; in both
cases they follow one another as given. -/
def add (f : Frontier) (order : Order) (is : List Nat) : Frontier :=
  match order with
  | .breadthFirst => ⟨f.front, is.reverseAux f.back⟩
  | .depthFirst => ⟨is ++ f.front, f.back⟩

@[simp] theorem toList_add_breadthFirst (f : Frontier) (is : List Nat) :
    (f.add .breadthFirst is).toList = f.toList ++ is := by
  simp [add, toList, List.reverseAux_eq]

@[simp] theorem toList_add_depthFirst (f : Frontier) (is : List Nat) :
    (f.add .depthFirst is).toList = is ++ f.toList := by
  simp [add, toList]

theorem isEmpty_iff (f : Frontier) : f.isEmpty = true ↔ f.toList = [] := by
  simp [isEmpty, toList]

theorem pop?_eq_none_iff (f : Frontier) : f.pop? = none ↔ f.toList = [] := by
  obtain ⟨front, back⟩ := f
  cases front with
  | cons => simp [pop?, toList]
  | nil => cases h : back.reverse <;> simp [pop?, toList, h]

theorem toList_eq_of_pop? {f rest : Frontier} {i : Nat} (h : f.pop? = some (i, rest)) :
    f.toList = i :: rest.toList := by
  obtain ⟨front, back⟩ := f
  cases front with
  | cons j front =>
    simp only [pop?, Option.some.injEq, Prod.mk.injEq] at h
    obtain ⟨rfl, rfl⟩ := h
    simp [toList]
  | nil =>
    cases hb : back.reverse with
    | nil => simp [pop?, hb] at h
    | cons j front =>
      simp only [pop?, hb, Option.some.injEq, Prod.mk.injEq] at h
      obtain ⟨rfl, rfl⟩ := h
      simp [toList, hb]

end Frontier

end GraphWalk
