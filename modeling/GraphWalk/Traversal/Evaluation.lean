import GraphWalk.Traversal.Config

/-!
What becomes of a path when it arrives at a node: stages are asked in a fixed order, and the first
that has an opinion decides.
-/

namespace GraphWalk

inductive Evaluation where
  | prune
  | terminate
  | includeAndExpand
  | excludeAndExpand
deriving DecidableEq, Inhabited, Repr

namespace Evaluation

/-- Whether the path is a result. -/
def includes : Evaluation → Bool
  | .terminate | .includeAndExpand => true
  | _ => false

/-- Whether the path is continued. -/
def expands : Evaluation → Bool
  | .includeAndExpand | .excludeAndExpand => true
  | _ => false

end Evaluation

inductive Stage where
  | startNode
  | denylist
  | belowMinLevel
  | terminator
  | endNode
  | allowlist
deriving DecidableEq, Inhabited, Repr

namespace Stage

/-- The order in which stages are asked. -/
def order : List Stage := [.startNode, .denylist, .belowMinLevel, .terminator, .endNode, .allowlist]

/-- The opinion of a stage on a path that arrives at `node`, which has the given labels, after
`depth` hops. -/
def opinion? (stage : Stage) (c : Config) (node : NodeId) (labels : List String) (depth : Nat) :
    Option Evaluation :=
  match stage with
  | .startNode =>
    if 0 < depth ∨ c.filterStartNode then none
    else if 0 < c.minLevel ∨ c.endNodeMode then some .excludeAndExpand
    else some .includeAndExpand
  | .denylist =>
    if c.labelFilter.matchesRule .deny labels || c.nodeFilter.denies node then some .prune else none
  | .belowMinLevel => if depth < c.minLevel then some .excludeAndExpand else none
  | .terminator =>
    if c.labelFilter.matchesRule .terminate labels || c.nodeFilter.isTerminator node then
      some .terminate
    else none
  | .endNode =>
    if c.labelFilter.matchesRule .endNode labels || c.nodeFilter.isEndNode node then
      some .includeAndExpand
    else none
  | .allowlist =>
    if !((!c.labelFilter.hasAllowlist || c.labelFilter.matchesRule .allow labels) &&
        c.nodeFilter.allows node) then
      some .prune
    else if c.endNodeMode && !c.hasAllowlist then some .excludeAndExpand
    else some .includeAndExpand

end Stage

/-- What becomes of a path that arrives at `node` after `depth` hops. -/
def Config.evaluate (c : Config) (node : NodeId) (labels : List String) (depth : Nat) :
    Evaluation :=
  (Stage.order.findSome? fun stage => stage.opinion? c node labels depth).getD .prune

theorem Stage.isSome_opinion?_allowlist (c : Config) (node : NodeId) (labels : List String)
    (depth : Nat) : (Stage.allowlist.opinion? c node labels depth).isSome = true := by
  simp only [Stage.opinion?]
  split
  · rfl
  · split <;> rfl

end GraphWalk
