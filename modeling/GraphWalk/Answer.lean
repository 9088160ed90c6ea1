import GraphWalk.Graph.Codec
import GraphWalk.Traversal.Rows

/-!
What a command is answered with: rows of one shape, of which some may be empty.
-/

namespace GraphWalk

def Path.toJson (p : Path) : Json :=
  .obj [("nodes", .ofList NodeId.toJson p.nodes),
    ("relationships", .ofList RelId.toJson p.relationships)]

def Subgraph.toJson (s : Subgraph) : Json :=
  .obj [("nodes", .ofList NodeId.toJson s.nodes),
    ("relationships", .ofList RelId.toJson s.relationships)]

/-- Rows, an empty one as `null`. -/
def rowsToJson (encode : α → Json) (rows : List (Option α)) : Json :=
  .ofList (.ofOption encode) rows

inductive Answer where
  | paths (rows : List (Option Path))
  | nodes (rows : List (Option NodeId))
  | subgraphs (rows : List (Option Subgraph))
deriving DecidableEq, Inhabited, Repr

namespace Answer

def length : Answer → Nat
  | .paths rows => rows.length
  | .nodes rows => rows.length
  | .subgraphs rows => rows.length

def isEmpty (a : Answer) : Bool := a.length == 0

def kind : Answer → String
  | .paths _ => "Paths"
  | .nodes _ => "Nodes"
  | .subgraphs _ => "Subgraphs"

def rows : Answer → Json
  | .paths rows => rowsToJson Path.toJson rows
  | .nodes rows => rowsToJson NodeId.toJson rows
  | .subgraphs rows => rowsToJson Subgraph.toJson rows

end Answer

end GraphWalk
