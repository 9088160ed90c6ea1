/-!
The procedures a caller can ask for.
-/

namespace GraphWalk

/-- What a traversal is turned into. -/
inductive Shape where
  | paths
  | nodes
  | subgraph
  | tree
deriving DecidableEq, Inhabited, Repr

/-- Expansion by position takes its filters and levels one by one; the others take a record of
options and differ in the shape of their rows. -/
inductive Procedure where
  | expand
  | shaped (shape : Shape)
deriving DecidableEq, Inhabited, Repr

namespace Procedure

def name : Procedure → String
  | .expand => "expand"
  | .shaped .paths => "expandConfig"
  | .shaped .nodes => "subgraphNodes"
  | .shaped .subgraph => "subgraphAll"
  | .shaped .tree => "spanningTree"

/-- Whether every node is reached once only, so that a least level above one makes no sense. -/
def isSubgraph : Procedure → Bool
  | .expand | .shaped .paths => false
  | .shaped _ => true

def all : List Procedure :=
  [.expand, .shaped .paths, .shaped .nodes, .shaped .subgraph, .shaped .tree]

end Procedure

end GraphWalk
