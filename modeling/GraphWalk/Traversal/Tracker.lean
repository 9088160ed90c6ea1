import GraphWalk.Ident
import GraphWalk.Uniqueness

/-!
Deciding whether a branch repeats what its uniqueness policy allows once.
-/

namespace GraphWalk

/-- A node of a path and the relationship by which the path enters it; a path enters its start by
none. -/
structure Step where
  node : NodeId
  rel : Option RelId
deriving DecidableEq, Inhabited, Repr

/-- The number that identifies the item of a step, if the step has such an item. -/
def Uniqueness.Item.of? : Uniqueness.Item → Step → Option Nat
  | .node, step => some step.node.val
  | .relationship, step => step.rel.map RelId.val

/-- An item that was admitted and the level for which it is taken. -/
structure Mark where
  level : Nat
  item : Nat
deriving DecidableEq, Inhabited, Repr

instance : Ord Mark := ⟨compareLex (compareOn Mark.level) (compareOn Mark.item)⟩

instance : Std.TransOrd Mark :=
  inferInstanceAs (Std.TransCmp (compareLex (compareOn Mark.level) (compareOn Mark.item)))

instance : Std.LawfulEqOrd Mark where
  eq_of_compare {a b} h := by
    obtain ⟨level, item⟩ := compareLex_eq_eq.mp h
    cases a; cases b
    exact congr (congrArg Mark.mk (Std.LawfulEqOrd.eq_of_compare level))
      (Std.LawfulEqOrd.eq_of_compare item)

structure Tracker where
  policy : Uniqueness
  window : Nat
  marks : Std.TreeSet Mark := ∅

namespace Tracker

/-- A tracker that looks back one step at least. -/
def new (policy : Uniqueness) (window : Nat) : Tracker := ⟨policy, max 1 window, ∅⟩

instance : Inhabited Tracker := ⟨new .default 1⟩

/-- Takes an item for a level, unless it is taken already. -/
def mark (t : Tracker) (m : Mark) : Bool × Tracker :=
  (!t.marks.contains m, { t with marks := t.marks.insert m })

/-- Whether `step` may follow the steps of `lineage`, the most recent first, as the end of a path of
`depth` hops; and the tracker after that decision. What a step does not have cannot repeat. -/
@[inline] def accept (t : Tracker) (lineage : List Step) (step : Step) (depth : Nat) :
    Bool × Tracker :=
  match t.policy with
  | .unrestricted => (true, t)
  | .once item scope =>
    match item.of? step with
    | none => (true, t)
    | some n =>
      match scope with
      | .global => t.mark ⟨0, n⟩
      | .level => t.mark ⟨depth, n⟩
      | .path => (!lineage.any fun s => item.of? s == some n, t)
      | .recent => (!(lineage.take t.window).any fun s => item.of? s == some n, t)

@[simp] theorem policy_mark (t : Tracker) (m : Mark) : (t.mark m).2.policy = t.policy := rfl

@[simp] theorem window_mark (t : Tracker) (m : Mark) : (t.mark m).2.window = t.window := rfl

theorem fst_mark_eq_true_iff (t : Tracker) (m : Mark) : (t.mark m).1 = true ↔ m ∉ t.marks := by
  simp only [mark, ← Std.TreeSet.contains_iff_mem, Bool.not_eq_true', Bool.not_eq_true]

theorem mem_marks_mark (t : Tracker) (m m' : Mark) :
    m' ∈ (t.mark m).2.marks ↔ m = m' ∨ m' ∈ t.marks := by
  simp [mark]

end Tracker

end GraphWalk
