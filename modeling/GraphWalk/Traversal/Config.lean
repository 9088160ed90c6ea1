import GraphWalk.Filter.Label
import GraphWalk.Filter.Node
import GraphWalk.Filter.Relationship
import GraphWalk.Uniqueness

/-!
What a traversal is told: filters, bounds, order and when to give up.
-/

namespace GraphWalk

/-- Which of the scheduled branches is visited next. -/
inductive Order where
  | breadthFirst
  | depthFirst
deriving DecidableEq, Inhabited, Repr

/-- When the caller withdraws the traversal, counted in queries to the graph. -/
inductive Cancellation where
  | never
  | after (queries : Nat)
deriving DecidableEq, Inhabited, Repr

/-- Whether the traversal has been withdrawn once that many queries were made. -/
def Cancellation.isRequested : Cancellation → Nat → Bool
  | .never, _ => false
  | .after n, queries => decide (n ≤ queries)

structure Config where
  relationshipFilter : RelationshipFilter := .any
  labelFilter : LabelFilter := .none
  nodeFilter : NodeFilter := .empty
  minLevel : Nat := 0
  maxLevel : Option Nat := none
  uniqueness : Uniqueness := .default
  recentWindow : Nat := 16
  limit : Option Nat := none
  /-- Answer a single empty row where there is no result. -/
  optional : Bool := false
  filterStartNode : Bool := false
  sample : Option Nat := none
  order : Order := .breadthFirst
  cancellation : Cancellation := .never

namespace Config

def default : Config := {}

instance : Inhabited Config := ⟨default⟩

/-- Whether only nodes that a filter names as ends make results of their own accord. -/
def endNodeMode (c : Config) : Bool := c.labelFilter.hasEndRules || c.nodeFilter.hasEndNodes

def hasAllowlist (c : Config) : Bool := c.labelFilter.hasAllowlist || c.nodeFilter.hasAllowlist

/-- Whether paths that end at this depth may be continued. -/
def expandsAt (c : Config) (depth : Nat) : Bool := c.maxLevel.all (depth < ·)

/-- Whether that many results are all that were asked for. -/
def limitReached (c : Config) (emitted : Nat) : Bool := c.limit.any (· ≤ emitted)

/-- The first relationships of a node, as many as the sample allows. -/
def sampled (c : Config) (rels : List Relationship) : List Relationship :=
  match c.sample with
  | none => rels
  | some n => rels.take n

end Config

end GraphWalk
