import GraphWalk.Graph.Basic

/-!
Histories of a store: the operations that change it, what each answers, and the graphs that
some sequence of them makes out of the empty one.
-/

namespace GraphWalk

namespace Graph

/-- What a store can be asked to change. -/
inductive Operation where
  | addNode (labels : List String) (properties : Json.Fields)
  | insertNode (n : Node)
  | removeNode (id : NodeId)
  | addRelationship (source target : NodeId) (type : String)
  | insertRelationship (r : Relationship)
  | removeRelationship (id : RelId)
deriving DecidableEq

inductive Reply where
  | node (id : NodeId)
  | relationship (id : RelId)
  | stored
  | removed (found : Bool)
  | refused (e : WalkError)
deriving DecidableEq

/-- The answer to an operation and the graph after it. -/
def perform (g : Graph) : Operation → Reply × Graph
  | .addNode labels properties => ((g.addNode labels properties).map .node id)
  | .insertNode n =>
    match g.insertNode n with
    | .ok g' => (.stored, g')
    | .error e => (.refused e, g)
  | .removeNode id =>
    match g.removeNode? id with
    | some g' => (.removed true, g')
    | none => (.removed false, g)
  | .addRelationship source target type =>
    match g.addRelationship source target type with
    | .ok (id, g') => (.relationship id, g')
    | .error e => (.refused e, g)
  | .insertRelationship r =>
    match g.insertRelationship r with
    | .ok g' => (.stored, g')
    | .error e => (.refused e, g)
  | .removeRelationship id =>
    match g.removeRelationship? id with
    | some g' => (.removed true, g')
    | none => (.removed false, g)

def after (g : Graph) (ops : List Operation) : Graph := ops.foldl (fun g op => (g.perform op).2) g

/-- Some sequence of operations makes the graph out of the empty one. -/
def Reachable (g : Graph) : Prop := ∃ ops, empty.after ops = g

@[simp] theorem after_cons (g : Graph) (op : Operation) (ops : List Operation) :
    g.after (op :: ops) = (g.perform op).2.after ops := rfl

theorem after_append (g : Graph) (ops ops' : List Operation) :
    g.after (ops ++ ops') = (g.after ops).after ops' := by
  simp [after]

theorem reachable_after_empty (ops : List Operation) : (empty.after ops).Reachable := ⟨ops, rfl⟩

/-- Two nodes and a relationship each way between them. -/
def twoWay : Graph := empty.after
  [.addNode ["A"] [], .addNode ["B"] [], .addRelationship ⟨0⟩ ⟨1⟩ "R", .addRelationship ⟨1⟩ ⟨0⟩ "S"]

end Graph

end GraphWalk
