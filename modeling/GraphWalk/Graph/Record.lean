import GraphWalk.Ident
import GraphWalk.Json.Basic

/-!
Nodes and relationships as stored, and the direction in which a relationship is seen from a node.
-/

namespace GraphWalk

structure Node where
  id : NodeId
  elementId : String
  labels : List String
  properties : Json.Fields
deriving DecidableEq, Inhabited

structure Relationship where
  id : RelId
  type : String
  source : NodeId
  target : NodeId
  properties : Json.Fields
deriving DecidableEq, Inhabited

inductive Direction where
  | outgoing
  | incoming
  | both
deriving DecidableEq, Inhabited, Repr

def Node.hasLabel (n : Node) (label : String) : Bool := n.labels.contains label

namespace Relationship

/-- The end point opposite `node`; a loop leads back to `node`. -/
def otherNode (r : Relationship) (node : NodeId) : NodeId :=
  if r.source = node then r.target else r.source

/-- How the relationship is seen from `node`: a loop in both directions. -/
def directionFrom (r : Relationship) (node : NodeId) : Direction :=
  if r.source = node then (if r.target = node then .both else .outgoing) else .incoming

end Relationship

namespace Direction

/-- Whether a relationship seen in direction `seen` may be followed in direction `d`. -/
def admits (d seen : Direction) : Bool :=
  match d with
  | .both => true
  | d => seen == .both || seen == d

def includesOutgoing : Direction → Bool
  | .incoming => false
  | _ => true

def includesIncoming : Direction → Bool
  | .outgoing => false
  | _ => true

end Direction

end GraphWalk
