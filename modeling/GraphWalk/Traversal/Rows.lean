import GraphWalk.Traversal.Run

/-!
The shapes in which a traversal is answered: its paths, the nodes it reached, the subgraph that
these span, or a tree of paths. All but the first visit every node once, by a shortest path.
-/

namespace GraphWalk

structure Subgraph where
  nodes : List NodeId
  relationships : List RelId
deriving DecidableEq, Inhabited, Repr

/-- The rows of an answer; a single empty row instead of none if that is asked for. -/
def rows (optional : Bool) (items : List α) : List (Option α) :=
  if items.isEmpty && optional then [none] else items.map some

/-- The same traversal breadth first and with every node once. -/
def Config.nodeOnce (c : Config) : Config :=
  { c with uniqueness := .once .node .global, order := .breadthFirst }

/-- The traversal for a procedure that reaches every node once, after its level was checked. -/
def traverseOnce (procedure : Procedure) (fuel : Nat) (g : Graph) (starts : List NodeId)
    (c : Config) : Option (Except WalkError Traversal.Output) :=
  match procedure.checkMinLevel (min c.minLevel (Word.signedLimit - 1) : Nat) with
  | .error e => some (.error e)
  | .ok () => traverse fuel g starts c.nodeOnce

/-- The nodes at which paths end, each once. -/
def Traversal.Output.reached (out : Traversal.Output) : List NodeId :=
  distinctBy id ∅ (out.paths.map Path.last)

/-- The relationships between nodes of a list whose type the filter admits, node by node. -/
def cover (g : Graph) (f : RelationshipFilter) (nodes : List NodeId) : List RelId :=
  let members : NodeSet := .ofList nodes
  nodes.flatMap fun node =>
    (g.incident node .outgoing).filterMap fun r =>
      if members.contains r.target && f.admitsType r.type then some r.id else none

/-- The subgraph that nodes span, if there are any. -/
def spanned (g : Graph) (f : RelationshipFilter) (nodes : List NodeId) : List Subgraph :=
  if nodes.isEmpty then [] else [⟨nodes, cover g f nodes⟩]

def expandPaths (fuel : Nat) (g : Graph) (starts : List NodeId) (c : Config) :
    Option (Except WalkError (List (Option Path))) :=
  (traverse fuel g starts c).map fun r => r.map fun out => rows c.optional out.paths

def subgraphNodes (fuel : Nat) (g : Graph) (starts : List NodeId) (c : Config) :
    Option (Except WalkError (List (Option NodeId))) :=
  (traverseOnce (.shaped .nodes) fuel g starts c).map fun r =>
    r.map fun out => rows c.optional out.reached

def subgraphAll (fuel : Nat) (g : Graph) (starts : List NodeId) (c : Config) :
    Option (Except WalkError (List (Option Subgraph))) :=
  (traverseOnce (.shaped .subgraph) fuel g starts c).map fun r =>
    r.map fun out => rows c.optional (spanned g c.relationshipFilter out.reached)

def spanningTree (fuel : Nat) (g : Graph) (starts : List NodeId) (c : Config) :
    Option (Except WalkError (List (Option Path))) :=
  (traverseOnce (.shaped .tree) fuel g starts c).map fun r =>
    r.map fun out => rows c.optional out.paths

end GraphWalk
