import GraphWalk.Graph.Basic

/-!
Snapshots: the nodes and relationships of a graph as lists.
-/

namespace GraphWalk

structure Snapshot where
  nodes : List Node := []
  relationships : List Relationship := []
deriving DecidableEq, Inhabited

/-- The elements in ascending order of the numbers that they have. -/
def sortBy (number : α → Nat) (as : List α) : List α :=
  as.mergeSort fun a b => number a ≤ number b

namespace Graph

/-- The current nodes and relationships, ascending by id. The relationships are collected where they
start. -/
def snapshot (g : Graph) : Snapshot :=
  let nodes := g.nodeIds.filterMap g.node?
  let relationships := nodes.flatMap fun n => g.incident n.id .outgoing
  ⟨nodes, sortBy (·.id.val) relationships⟩

/-- The graph that a snapshot describes; the order of its relationships is the order in which
traversals meet them. -/
def ofSnapshot (s : Snapshot) : Except WalkError Graph := do
  s.relationships.foldlM insertRelationship (← s.nodes.foldlM insertNode empty)

end Graph

end GraphWalk
