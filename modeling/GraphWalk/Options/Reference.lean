import GraphWalk.Command.Error
import GraphWalk.Filter.Node

/-!
References to nodes given as JSON: a number, an element id, or an object that holds one of them.
-/

namespace GraphWalk

namespace NodeRef

/-- Reads one reference; `key` is the name under which it was given. -/
def ofJson (key : String) (j : Json) : Except InvalidInput NodeRef :=
  match j with
  | .num n =>
    match j.signed? with
    | some id => .ok (.number id)
    | none => .error (.idNotInteger key n)
  | .str e => .ok (.elementId e)
  | .obj fields =>
    match fields.lookup "id" >>= Json.signed?, fields.lookup "elementId" >>= Json.string? with
    | some id, _ => .ok (.number id)
    | none, some e => .ok (.elementId e)
    | none, none => .error (.mapWithoutId key)
  | other => .error (.notAReference key other.kind)

/-- Reads one reference or a list of them; `null` is the empty list. -/
def listOfJson (key : String) : Json → Except InvalidInput (List NodeRef)
  | .null => .ok []
  | .arr items => items.mapM (ofJson key)
  | single => (ofJson key single).map fun r => [r]

def optionalListOfJson (key : String) : Option Json → Except InvalidInput (Option (List NodeRef))
  | none | some .null => .ok none
  | some j => (listOfJson key j).map some

end NodeRef

/-- The nodes from which a traversal starts. Each reference must name a node. -/
def startNodes (g : Graph) (start : Json) : Except CommandError (List NodeId) := do
  let refs ← (NodeRef.listOfJson "start" start).mapError .invalidInput
  refs.mapM fun r =>
    match r.resolve? g with
    | some id => .ok id
    | none => .error (.nodeNotFound r.render)

end GraphWalk
