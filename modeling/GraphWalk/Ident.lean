import Std.Data.TreeSet

/-!
Identities of nodes and relationships, ordered by number.
-/

namespace GraphWalk

structure NodeId where
  val : Nat
deriving DecidableEq, Inhabited, Repr

structure RelId where
  val : Nat
deriving DecidableEq, Inhabited, Repr

instance : ToString NodeId := ⟨fun id => toString id.val⟩

instance : ToString RelId := ⟨fun id => toString id.val⟩

instance : Ord NodeId := ⟨compareOn NodeId.val⟩

instance : Ord RelId := ⟨compareOn RelId.val⟩

instance : Std.TransOrd NodeId := inferInstanceAs (Std.TransCmp (compareOn NodeId.val))

instance : Std.TransOrd RelId := inferInstanceAs (Std.TransCmp (compareOn RelId.val))

instance : Std.LawfulEqOrd NodeId where
  eq_of_compare {a b} h := by
    cases a; cases b
    exact congrArg NodeId.mk (Std.LawfulEqOrd.eq_of_compare (h : compare _ _ = .eq))

instance : Std.LawfulEqOrd RelId where
  eq_of_compare {a b} h := by
    cases a; cases b
    exact congrArg RelId.mk (Std.LawfulEqOrd.eq_of_compare (h : compare _ _ = .eq))

@[simp] theorem NodeId.val_inj {a b : NodeId} : a.val = b.val ↔ a = b := by
  cases a; cases b; simp

@[simp] theorem RelId.val_inj {a b : RelId} : a.val = b.val ↔ a = b := by
  cases a; cases b; simp

abbrev NodeSet := Std.TreeSet NodeId

end GraphWalk
