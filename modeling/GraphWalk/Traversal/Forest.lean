import GraphWalk.Path
import GraphWalk.Traversal.Tracker

/-!
The branches of a traversal. Each is kept once with the number of the branch that it continues, and
shares everything before its end with that branch.
-/

namespace GraphWalk

/-- How a branch continues another one. -/
structure Branch.Entry where
  parent : Nat
  rel : RelId
deriving DecidableEq, Inhabited, Repr

structure Branch where
  node : NodeId
  depth : Nat
  entry : Option Branch.Entry
deriving DecidableEq, Inhabited, Repr

def Branch.step (b : Branch) : Step := ⟨b.node, b.entry.map (·.rel)⟩

/-- The branch that consists of a start node. -/
def Branch.root (start : NodeId) : Branch := ⟨start, 0, none⟩

structure Forest where
  branches : Array Branch := #[]

namespace Forest

def size (f : Forest) : Nat := f.branches.size

def branch? (f : Forest) (i : Nat) : Option Branch := f.branches[i]?

/-- Adds branches, which take the numbers from the size on. -/
def append (f : Forest) (bs : List Branch) : Forest := ⟨f.branches.appendList bs⟩

/-- The steps of branch `i` from its end back to its start. -/
def lineage (f : Forest) (i : Nat) : List Step :=
  match f.branch? i with
  | none => []
  | some b =>
    b.step :: match b.entry with
      | none => []
      | some entry => if entry.parent < i then f.lineage entry.parent else []
termination_by i

/-- The steps before the end of a branch. -/
def lineageBefore (f : Forest) (b : Branch) : List Step :=
  match b.entry with
  | none => []
  | some entry => f.lineage entry.parent

/-- The path that follows branch `i` and then the given hops. -/
def pathThrough (f : Forest) (i : Nat) (hops : List Hop) : Option Path :=
  match f.branch? i with
  | none => none
  | some b =>
    match b.entry with
    | none => some ⟨b.node, hops⟩
    | some entry =>
      if entry.parent < i then f.pathThrough entry.parent (⟨entry.rel, b.node⟩ :: hops) else none
termination_by i

def path? (f : Forest) (i : Nat) : Option Path := f.pathThrough i []

end Forest

end GraphWalk
