import GraphWalk.Executor

/-!
The procedures as functions, each with rows of its own type.
-/

namespace GraphWalk

structure Expander where
  executor : Executor

namespace Expander

def new (g : Graph) (cancellation : Cancellation := .never) : Expander := ⟨⟨g, cancellation⟩⟩

/-- Runs a command whose answer has rows of one type. -/
def call (e : Expander) (fuel : Nat) (c : Command) (select : Answer → Option (List (Option α))) :
    Option (Except CommandError (List (Option α))) :=
  (e.executor.execute fuel c).map fun r =>
    r.bind fun answer =>
      match select answer with
      | some rows => .ok rows
      | none => .error (.unexpectedAnswer c.name)

def paths? : Answer → Option (List (Option Path))
  | .paths rows => some rows
  | _ => none

def nodes? : Answer → Option (List (Option NodeId))
  | .nodes rows => some rows
  | _ => none

def subgraphs? : Answer → Option (List (Option Subgraph))
  | .subgraphs rows => some rows
  | _ => none

def expand (e : Expander) (fuel : Nat) (start : Json)
    (relationshipFilter labelFilter : Option String) (minLevel maxLevel : Int) :
    Option (Except CommandError (List (Option Path))) :=
  e.call fuel (.expand start relationshipFilter labelFilter minLevel maxLevel) paths?

def expandConfig (e : Expander) (fuel : Nat) (start options : Json) :
    Option (Except CommandError (List (Option Path))) :=
  e.call fuel (.shaped .paths start options) paths?

def subgraphNodes (e : Expander) (fuel : Nat) (start options : Json) :
    Option (Except CommandError (List (Option NodeId))) :=
  e.call fuel (.shaped .nodes start options) nodes?

def subgraphAll (e : Expander) (fuel : Nat) (start options : Json) :
    Option (Except CommandError (List (Option Subgraph))) :=
  e.call fuel (.shaped .subgraph start options) subgraphs?

def spanningTree (e : Expander) (fuel : Nat) (start options : Json) :
    Option (Except CommandError (List (Option Path))) :=
  e.call fuel (.shaped .tree start options) paths?

end Expander

end GraphWalk
