import GraphWalk.Json.Basic
import GraphWalk.Procedure

/-!
Commands: a procedure together with its arguments as they were given.
-/

namespace GraphWalk

inductive Command where
  | expand (start : Json) (relationshipFilter labelFilter : Option String) (minLevel maxLevel : Int)
  | shaped (shape : Shape) (start options : Json)
deriving DecidableEq, Inhabited

namespace Command

def procedure : Command → Procedure
  | .expand .. => .expand
  | .shaped shape .. => .shaped shape

def start : Command → Json
  | .expand start .. => start
  | .shaped _ start _ => start

def nameOf : Procedure → String
  | .expand => "Expand"
  | .shaped .paths => "ExpandConfig"
  | .shaped .nodes => "SubgraphNodes"
  | .shaped .subgraph => "SubgraphAll"
  | .shaped .tree => "SpanningTree"

def name (c : Command) : String := nameOf c.procedure

/-- The procedure of a command name, which has to be exact. -/
def procedureOf? (name : String) : Option Procedure :=
  Procedure.all.find? (nameOf · == name)

theorem procedureOf?_nameOf (p : Procedure) : procedureOf? (nameOf p) = some p := by
  rcases p with _ | shape
  · decide
  · cases shape <;> decide

end Command

end GraphWalk
